/-
  Fleet.Text.OsText — what the system takes for a text: any bytes. Those that encode a text
  are that text (`OsText.text`), and all others are kept as they are (`OsText.raw`).
-/

import Fleet.Text.Utf8

namespace Fleet

open Text

inductive OsText where
  | text (text : String)
  | raw (bytes : Bytes) (unreadable : ofBytes? bytes = none)
  deriving DecidableEq, Repr

instance : Coe String OsText := ⟨.text⟩

namespace OsText

def ofBytes (bytes : Bytes) : OsText :=
  match h : ofBytes? bytes with
  | some t => .text t
  | none => .raw bytes h

def bytes : OsText → Bytes
  | .text t => toBytes t
  | .raw bytes _ => bytes

def isText : OsText → Bool
  | .text _ => true
  | .raw .. => false

def shown : OsText → String
  | .text t => t
  | .raw bytes _ => Text.ofBytes bytes

/-! ## Piece by piece -/

def letters : OsText → List Letter
  | .text t => t.toList.map .char
  | .raw bytes _ => decode bytes

def ofLetters (letters : List Letter) : OsText := ofBytes (letters.flatMap Letter.bytes)

end OsText

end Fleet
