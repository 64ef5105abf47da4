/-
  Fleet.Text.Utf8 — texts as bytes and bytes as texts. Bytes that encode no character are
  shown as one replacement character for each piece that could have begun one.
-/

namespace Fleet.Text

abbrev Bytes := List UInt8

def toBytes (text : String) : Bytes := text.toUTF8.toList

/-- A piece of some bytes: a character, or a piece that encodes none. -/
inductive Letter where
  | char (c : Char)
  | stray (bytes : Bytes)
  deriving DecidableEq, Repr

namespace Letter

def bytes : Letter → Bytes
  | .char c => toBytes c.toString
  | .stray bytes => bytes

def char? : Letter → Option Char
  | .char c => some c
  | .stray _ => none

def shown (l : Letter) : Char := l.char?.getD '\ufffd'

end Letter

/-- A character of which the first bytes are known: the bits so far, how many bytes are
    missing, and between which bounds the next of them lies. -/
structure Begun where
  bytes : Bytes
  bits : Nat
  missing : Nat
  low : UInt8
  high : UInt8

inductive Lead where
  | whole (c : Char)
  | begun (b : Begun)
  | invalid

def lead (b : UInt8) : Lead :=
  if b < 0x80 then .whole (Char.ofNat b.toNat)
  else if 0xC2 ≤ b ∧ b ≤ 0xDF then .begun ⟨[b], b.toNat - 0xC0, 1, 0x80, 0xBF⟩
  else if 0xE0 ≤ b ∧ b ≤ 0xEF then
    .begun ⟨[b], b.toNat - 0xE0, 2, if b = 0xE0 then 0xA0 else 0x80, if b = 0xED then 0x9F else 0xBF⟩
  else if 0xF0 ≤ b ∧ b ≤ 0xF4 then
    .begun ⟨[b], b.toNat - 0xF0, 3, if b = 0xF0 then 0x90 else 0x80, if b = 0xF4 then 0x8F else 0xBF⟩
  else .invalid

def decodeFrom : Option Begun → Bytes → List Letter
  | none, [] => []
  | some s, [] => [.stray s.bytes]
  | state, b :: rest =>
    let fresh : List Letter := match lead b with
      | .whole c => .char c :: decodeFrom none rest
      | .begun s => decodeFrom (some s) rest
      | .invalid => .stray [b] :: decodeFrom none rest
    match state with
    | none => fresh
    | some s =>
      if s.low ≤ b ∧ b ≤ s.high then
        let bits := s.bits * 64 + (b.toNat - 0x80)
        if s.missing ≤ 1 then .char (Char.ofNat bits) :: decodeFrom none rest
        else decodeFrom (some ⟨s.bytes ++ [b], bits, s.missing - 1, 0x80, 0xBF⟩) rest
      else .stray s.bytes :: fresh

def decode (bytes : Bytes) : List Letter := decodeFrom none bytes

/-- The text that bytes encode, if they do. -/
def ofBytes? (bytes : Bytes) : Option String := ((decode bytes).mapM Letter.char?).map String.ofList

/-- The text that bytes encode as well as can be. -/
def ofBytes (bytes : Bytes) : String := String.ofList ((decode bytes).map Letter.shown)

end Fleet.Text
