/-
  Fleet.Placement.IdRange — a run of consecutive worker ids, first included and stop
  excluded. Everything that deals out ids deals out one of these; `toList` is the view
  (`mem_toList`, `length_toList`).
-/

namespace Fleet

structure IdRange where
  first : UInt32
  stop : UInt32
  deriving DecidableEq, Repr

namespace IdRange

def size (r : IdRange) : Nat := r.stop.toNat - r.first.toNat

def isEmpty (r : IdRange) : Bool := r.stop ≤ r.first

def contains (r : IdRange) (id : UInt32) : Bool := r.first ≤ id && id < r.stop

def toList (r : IdRange) : List UInt32 := (List.range r.size).map fun k => r.first + UInt32.ofNat k

def text (r : IdRange) : String := s!"{r.first}..{r.stop}"

@[simp] theorem length_toList (r : IdRange) : r.toList.length = r.size := by simp [toList]

theorem isEmpty_iff (r : IdRange) : r.isEmpty = true ↔ r.size = 0 := by
  simp only [isEmpty, size, decide_eq_true_eq, UInt32.le_iff_toNat_le]
  omega

theorem toNat_add_ofNat {r : IdRange} {k : Nat} (h : k < r.size) :
    (r.first + UInt32.ofNat k).toNat = r.first.toNat + k := by
  have hs := r.stop.toNat_lt
  simp only [size] at h
  have hk : k < 4294967296 := by omega
  rw [UInt32.toNat_add, UInt32.toNat_ofNat_of_lt' (by simpa using hk)]
  exact Nat.mod_eq_of_lt (by omega)

theorem mem_toList {r : IdRange} {id : UInt32} : id ∈ r.toList ↔ r.contains id = true := by
  simp only [toList, List.mem_map, List.mem_range, contains, Bool.and_eq_true, decide_eq_true_eq,
    UInt32.le_iff_toNat_le, UInt32.lt_iff_toNat_lt]
  constructor
  · rintro ⟨k, hk, rfl⟩
    rw [toNat_add_ofNat hk]
    simp only [size] at hk
    omega
  · rintro ⟨h₁, h₂⟩
    refine ⟨id.toNat - r.first.toNat, by simp only [size]; omega, ?_⟩
    apply UInt32.toNat_inj.mp
    rw [toNat_add_ofNat (by simp only [size]; omega)]
    omega

end IdRange

end Fleet
