/-
  Fleet.Proofs.System.Places — what becomes of every place when files are changed.

  Having an entry at a place and writing to the end of a file change that place and no other
  (`lookup?_put`, `lookup?_append`). Making directories fills places that were empty and leaves
  all others, whether it succeeds or not (`makeDirectories_adds`). Opening a log makes it, empty,
  if there was nothing, and changes nothing otherwise (`opens_of_openAppend`).

  Where a path leads does not depend on what there is (`Files.leads`): there are no links, so a
  path that can be followed at all leads to the same place now as later.
-/

import Fleet.System.Files

namespace Fleet.System

open Fleet.Text

def Entry.grown (bytes : Bytes) : Entry → Entry
  | .file content executable => .file (content ++ bytes) executable
  | entry => entry

@[simp] theorem Entry.grown_nil (e : Entry) : e.grown [] = e := by
  cases e <;> simp [grown]

theorem Entry.grown_append (e : Entry) (a b : Bytes) : e.grown (a ++ b) = (e.grown a).grown b := by
  cases e <;> simp [grown]

namespace Files

variable {fs next : Files} {place q : Place} {path : String}

theorem lookup?_of_content? {content : Bytes} (h : fs.content? q = some content) :
    ∃ executable, fs.lookup? q = some (.file content executable) := by
  unfold content? at h
  split at h
  · rename_i content executable hfile
    cases h
    exact ⟨executable, hfile⟩
  · cases h

/-! ## One place -/

@[simp] theorem here_put (fs : Files) (place : Place) (entry : Entry) : (fs.put place entry).here = fs.here := by
  unfold put
  split <;> rfl

theorem lookup_replaced (entries : List (Place × Entry)) (place q : Place) (entry : Entry) :
    (entries.map fun e => if e.1 = place then (place, entry) else e).lookup q =
      if q = place then (entries.lookup place).map fun _ => entry else entries.lookup q := by
  induction entries with
  | nil => simp
  | cons e rest ih =>
    obtain ⟨here, old⟩ := e
    rw [List.map_cons, List.lookup_cons, List.lookup_cons, List.lookup_cons, ih]
    by_cases replaced : here = place
    · subst replaced
      by_cases same : q = here
      · simp [same]
      · simp [same, beq_false_of_ne same]
    · rw [if_neg replaced]
      by_cases same : q = here
      · subst same
        simp [replaced]
      · have other : place ≠ here := Ne.symm replaced
        simp only [beq_false_of_ne same, beq_false_of_ne other]

theorem lookup?_put (ne : place ≠ []) (entry : Entry) :
    (fs.put place entry).lookup? q = if q = place then some entry else fs.lookup? q := by
  have root (hq : q = []) : q ≠ place := fun e => ne (e ▸ hq)
  unfold lookup?
  by_cases hq : q = []
  · rw [if_pos hq, if_neg (root hq), if_pos hq]
  · rw [if_neg hq, if_neg hq, put]
    split
    · rename_i known
      obtain ⟨old, hold⟩ := Option.isSome_iff_exists.mp known
      rw [lookup_replaced, hold]
      rfl
    · rename_i unknown
      have none_there : fs.entries.lookup place = none := Option.not_isSome_iff_eq_none.mp unknown
      rw [List.lookup_append]
      by_cases same : q = place
      · subst same
        simp [none_there]
      · have apart : List.lookup q [(place, entry)] = none := by simp [List.lookup_cons, beq_false_of_ne same]
        rw [apart, Option.or_none, if_neg same]

@[simp] theorem here_append (fs : Files) (place : Place) (bytes : Bytes) : (fs.append place bytes).here = fs.here := by
  unfold append
  split
  · exact here_put ..
  · rfl

theorem lookup?_append (fs : Files) (place : Place) (bytes : Bytes) (q : Place) :
    (fs.append place bytes).lookup? q = (fs.lookup? q).map (Entry.grown (if q = place then bytes else [])) := by
  have unchanged : (fs.lookup? q).map (Entry.grown []) = fs.lookup? q := by
    cases fs.lookup? q <;> simp
  unfold append
  split
  · rename_i content executable hfile
    have ne : place ≠ [] := by
      rintro rfl
      cases hfile
    rw [lookup?_put ne]
    by_cases same : q = place
    · subst same
      rw [if_pos rfl, if_pos rfl, hfile]
      rfl
    · rw [if_neg same, if_neg same, unchanged]
  · rename_i nofile
    by_cases same : q = place
    · subst same
      rw [if_pos rfl]
      cases hq : fs.lookup? q with
      | none => rfl
      | some e =>
        cases e with
        | file content executable => exact (nofile _ _ hq).elim
        | _ => rfl
    · rw [if_neg same, unchanged]

/-! ## Directories -/

/-- Some places that were empty are directories now, and nothing else has changed. -/
structure AddsDirectories (fs next : Files) : Prop where
  here : next.here = fs.here
  places : ∀ q, next.lookup? q = fs.lookup? q ∨ fs.lookup? q = none ∧ next.lookup? q = some .directory

theorem AddsDirectories.refl (fs : Files) : AddsDirectories fs fs := ⟨rfl, fun _ => .inl rfl⟩

theorem AddsDirectories.trans {last : Files} (h : AddsDirectories fs next) (h' : AddsDirectories next last) :
    AddsDirectories fs last := by
  refine ⟨h'.here.trans h.here, fun q => ?_⟩
  rcases h.places q with same | ⟨empty, made⟩ <;> rcases h'.places q with same' | ⟨empty', made'⟩
  · exact .inl (same'.trans same)
  · exact .inr ⟨same ▸ empty', made'⟩
  · exact .inr ⟨empty, same'.trans made⟩
  · rw [made] at empty'
    cases empty'

theorem makeDirectory_adds (h : fs.makeDirectory path = .ok next) : AddsDirectories fs next := by
  unfold makeDirectory at h
  cases hfollow : fs.follow path with
  | error fault =>
    rw [hfollow] at h
    cases h
  | ok place =>
    simp only [hfollow, bind, Except.bind] at h
    split at h
    · cases h
    · rename_i empty
      cases h
      have ne : place ≠ [] := by
        rintro rfl
        cases empty
      refine ⟨here_put .., fun q => ?_⟩
      rw [lookup?_put ne]
      by_cases same : q = place
      · subst same
        exact .inr ⟨empty, if_pos rfl⟩
      · exact .inl (if_neg same)

theorem makeAll_adds (fs : Files) (absolute : Bool) (pieces : List String) :
    AddsDirectories fs (fs.makeAll absolute pieces).1 := by
  induction pieces with
  | nil => exact .refl fs
  | cons last above ih =>
    simp only [makeAll]
    generalize (if absolute then "/" else "") ++ "/".intercalate (last :: above).reverse = path
    cases hmade : fs.makeDirectory path with
    | ok made => exact makeDirectory_adds hmade
    | error fault =>
      cases fault with
      | noEntry =>
        cases hall : fs.makeAll absolute above with
        | mk made result =>
          rw [hall] at ih
          cases result with
          | error fault => exact ih
          | ok _ =>
            cases hlast : made.makeDirectory path with
            | ok final =>
              simp only [hlast]
              exact ih.trans (makeDirectory_adds hlast)
            | error fault =>
              simp only [hlast]
              exact ih
      | _ => exact .refl fs

theorem makeDirectories_adds (fs : Files) (path : String) : AddsDirectories fs (fs.makeDirectories path).1 :=
  makeAll_adds ..

/-! ## Paths -/

/-- Where some names lead from a place, whatever there is on the way. -/
def along : Place → List String → Place
  | place, [] => place
  | place, name :: rest =>
    if name = "." then along place rest
    else if name = ".." then along place.dropLast rest
    else along (place ++ [name]) rest

def leads (here : Place) (path : String) : Place := along (if Path.isAbsolute path then [] else here) (names path)

theorem along_of_walk {names : List String} (h : fs.walk q names = .ok place) : place = along q names := by
  induction names generalizing q with
  | nil =>
    cases h
    rfl
  | cons name rest ih =>
    unfold walk at h
    unfold along
    split at h
    · cases h
    · split at h
      · rw [if_pos ‹_›]
        exact ih h
      · rw [if_neg ‹_›]
        split at h
        · rw [if_pos ‹_›]
          exact ih h
        · rw [if_neg ‹_›]
          split at h
          · cases h
          · split at h
            · cases h
            · exact ih h
    · cases h

theorem leads_of_follow (h : fs.follow path = .ok place) : place = leads fs.here path := by
  unfold follow at h
  split at h
  · cases h
  · split at h
    · cases h
    · split at h
      · cases h
      · exact along_of_walk h

/-! ## Logs -/

/-- A place is opened to write to its end: it is no directory, and if there was nothing it is an
    empty file now. Nothing else has changed. -/
structure Opens (fs : Files) (place : Place) (next : Files) : Prop where
  here : next.here = fs.here
  others : ∀ q ≠ place, next.lookup? q = fs.lookup? q
  opened : (∃ e ≠ .directory, fs.lookup? place = some e ∧ next.lookup? place = some e) ∨
    fs.lookup? place = none ∧ ∃ executable, next.lookup? place = some (.file [] executable)

theorem opens_of_openAppend (h : fs.openAppend path = .ok (next, place)) :
    place = leads fs.here path ∧ Opens fs place next := by
  unfold openAppend at h
  cases hfollow : fs.follow path with
  | error fault =>
    rw [hfollow] at h
    cases h
  | ok at_ =>
    simp only [hfollow, bind, Except.bind] at h
    split at h
    · cases h
    · split at h
      · rename_i empty
        cases h
        have ne : place ≠ [] := by
          rintro rfl
          cases empty
        refine ⟨leads_of_follow hfollow, here_put .., fun q other => ?_, .inr ⟨empty, false, ?_⟩⟩
        · rw [lookup?_put ne, if_neg other]
        · rw [lookup?_put ne, if_pos rfl]
      · cases h
      · rename_i e nodir hsome
        cases h
        exact ⟨leads_of_follow hfollow, rfl, fun _ _ => rfl, .inl ⟨e, nodir, hsome, hsome⟩⟩

end Files

end Fleet.System
