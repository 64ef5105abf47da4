/-
  Fleet.Proofs.Launch.Extra — the synthetic messages that the servers add.

  Every client sends a message, and every server adds equally many. The number that each server
  is to add is the largest with which the target is not passed (`Topology.reaches_iff`); where
  the clients alone send more than the target it is negative, and rounded down all the same. It
  hangs on the topology and the target alone, so all clients that work on one target are told
  the same, on whatever machine.

  The program divides 64-bit words, toward zero, and looks at the remainder. No step of that
  leaves the word (`Topology.extraExact`).

  `clients_told_extra`: what every client is told, and every plan shows, for a target is this
  number.
-/

import Fleet.Proofs.Launch.PlanReading
import Fleet.Proofs.Launch.Refusal

namespace Fleet

/-! ## The largest number that does not pass the target -/

namespace Topology

variable (t : Topology)

/-- With `e` messages from each server the target is reached, or missed by less than one message
    from each. -/
def Reaches (target : UInt32) (e : Int) : Prop :=
  e * t.totalServers.toNat + t.totalClients.toNat ≤ target.toNat ∧
    target.toNat < (e + 1) * t.totalServers.toNat + t.totalClients.toNat

theorem totalServers_pos : (0 : Int) < t.totalServers.toNat := by
  have := t.serverVms_pos
  have := t.serverVms_le
  omega

theorem extra_eq (target : UInt32) :
    t.extra target = ((target.toNat : Int) - t.totalClients.toNat) / t.totalServers.toNat :=
  Int.fdiv_eq_ediv_of_nonneg _ (Int.le_of_lt t.totalServers_pos)

theorem reaches_iff (target : UInt32) (e : Int) : t.Reaches target e ↔ e = t.extra target := by
  have pos := t.totalServers_pos
  have lower := Int.le_ediv_iff_mul_le (a := e) (b := (target.toNat : Int) - t.totalClients.toNat) pos
  have upper := Int.ediv_lt_iff_lt_mul (a := (target.toNat : Int) - t.totalClients.toNat) (b := e + 1) pos
  rw [← extra_eq] at lower upper
  unfold Reaches
  constructor
  · rintro ⟨h₁, h₂⟩
    have := lower.mpr (by omega)
    have := upper.mpr (by omega)
    omega
  · rintro rfl
    have := lower.mp (Int.le_refl _)
    have := upper.mp (by omega)
    omega

theorem extra_neg_iff (target : UInt32) : t.extra target < 0 ↔ target < t.totalClients := by
  rw [extra_eq, Int.ediv_lt_iff_lt_mul t.totalServers_pos, UInt32.lt_iff_toNat_lt]
  omega

theorem extra_mono {target target' : UInt32} (le : target ≤ target') : t.extra target ≤ t.extra target' := by
  rw [UInt32.le_iff_toNat_le] at le
  rw [extra_eq, extra_eq]
  exact Int.ediv_le_ediv t.totalServers_pos (by omega)

theorem extra_exact_iff (target : UInt32) :
    t.extra target * t.totalServers.toNat + t.totalClients.toNat = target.toNat ↔
      (t.totalServers.toNat : Int) ∣ (target.toNat : Int) - t.totalClients.toNat := by
  constructor
  · intro h
    exact ⟨t.extra target, by rw [Int.mul_comm]; omega⟩
  · intro h
    have := Int.ediv_mul_cancel h
    rw [← extra_eq] at this
    omega

/-! ## In 64-bit words -/

def word (n : UInt32) : Int64 := .ofNat n.toNat

def missing (target : UInt32) : Int64 := word target - word t.totalClients

/-- A quotient that is rounded toward zero, and corrected where the remainder is negative. -/
def roundedDown (a b : Int64) : Int64 :=
  if a % b < 0 then if 0 < b then a / b - 1 else a / b + 1 else a / b

/-- The operations on 64-bit words give the numbers they stand for, and in the end `e`: none
    divides by zero or leaves the word. -/
structure ExtraExact (target : UInt32) (e : Int) : Prop where
  divisor : word t.totalServers ≠ 0
  servers : (word t.totalServers).toInt = t.totalServers.toNat
  missing : (t.missing target).toInt = (target.toNat : Int) - t.totalClients.toNat
  quotient : (t.missing target / word t.totalServers).toInt =
    (t.missing target).toInt.tdiv (word t.totalServers).toInt
  remainder : (t.missing target % word t.totalServers).toInt =
    (t.missing target).toInt.tmod (word t.totalServers).toInt
  result : (roundedDown (t.missing target) (word t.totalServers)).toInt = e

theorem toInt_word (n : UInt32) : (word n).toInt = n.toNat :=
  Int64.toInt_ofNat_of_lt (Nat.lt_trans n.toNat_lt (by decide))

theorem toInt_missing (target : UInt32) : (t.missing target).toInt = (target.toNat : Int) - t.totalClients.toNat := by
  have := target.toNat_lt
  have := t.totalClients.toNat_lt
  rw [missing, Int64.toInt_sub, toInt_word, toInt_word]
  exact Int.bmod_eq_of_le (by omega) (by omega)

/-- What is rounded toward zero is one too high where the remainder is negative. -/
theorem tdiv_corrected {b : Int} (pos : 0 < b) (a : Int) :
    (if a.tmod b < 0 then a.tdiv b - 1 else a.tdiv b) = a / b := by
  have := Int.emod_nonneg a (Int.ne_of_gt pos)
  have := Int.emod_lt_of_pos a pos
  rw [Int.tdiv_eq_ediv, Int.tmod_eq_emod, Int.sign_eq_one_of_pos pos]
  by_cases h : 0 ≤ a ∨ b ∣ a
  · rw [if_neg (by rw [if_pos h]; omega), if_pos h]
    omega
  · rw [if_pos (by rw [if_neg h]; omega), if_neg h]
    omega

theorem extra_bounds (target : UInt32) : -2 ^ 32 < t.extra target ∧ t.extra target < 2 ^ 32 := by
  have pos := t.totalServers_pos
  have := target.toNat_lt
  have := t.totalClients.toNat_lt
  rw [extra_eq, Int.ediv_lt_iff_lt_mul pos, ← Int.add_one_le_iff, Int.le_ediv_iff_mul_le pos]
  omega

theorem extraExact (target : UInt32) : t.ExtraExact target (t.extra target) := by
  have servers := toInt_word t.totalServers
  have missing := t.toInt_missing target
  have pos : 0 < (word t.totalServers).toInt := by
    rw [servers]
    exact t.totalServers_pos
  have quotient : (t.missing target / word t.totalServers).toInt =
      (t.missing target).toInt.tdiv (word t.totalServers).toInt := by
    refine Int64.toInt_div_of_ne_left _ _ fun h => ?_
    have := target.toNat_lt
    have := t.totalClients.toNat_lt
    rw [h, Int64.toInt_minValue] at missing
    omega
  have remainder := Int64.toInt_mod (t.missing target) (word t.totalServers)
  have rounded := tdiv_corrected pos (t.missing target).toInt
  -- its right side is the number wanted, and its left side goes back to the words
  rw [missing, servers, ← extra_eq, ← servers, ← missing, ← quotient, ← remainder] at rounded
  have bounds := t.extra_bounds target
  refine ⟨fun h => ?_, servers, missing, quotient, remainder, ?_⟩
  · rw [h] at pos
    exact absurd pos (by decide)
  · have positive : 0 < word t.totalServers := Int64.lt_iff_toInt_lt.mpr pos
    have negative_iff : t.missing target % word t.totalServers < 0 ↔
        (t.missing target % word t.totalServers).toInt < 0 := Int64.lt_iff_toInt_lt
    unfold roundedDown
    split at rounded
    next negative =>
      rw [if_pos (negative_iff.mpr negative), if_pos positive, Int64.toInt_sub, Int64.toInt_one, rounded]
      exact Int.bmod_eq_of_le (by omega) (by omega)
    next nonneg =>
      rw [if_neg (mt negative_iff.mp nonneg)]
      exact rounded

/-- What a rule for the messages that each server adds has to meet. -/
structure FillRule (fill : UInt32 → Int) : Prop where
  /-- It gives the only number with which the target is reached and not passed. -/
  reaches : ∀ target e, t.Reaches target e ↔ e = fill target
  inWords : ∀ target, t.ExtraExact target (fill target)
  negative : ∀ target, fill target < 0 ↔ target < t.totalClients
  mono : ∀ target target', target ≤ target' → fill target ≤ fill target'
  exact : ∀ target, fill target * t.totalServers.toNat + t.totalClients.toNat = target.toNat ↔
    (t.totalServers.toNat : Int) ∣ (target.toNat : Int) - t.totalClients.toNat

theorem fillRule : t.FillRule t.extra where
  reaches := t.reaches_iff
  inWords := t.extraExact
  negative := t.extra_neg_iff
  mono _ _ := t.extra_mono
  exact := t.extra_exact_iff

end Topology

/-! ## What a launch shows -/

def targetHeadings (lines : List String) : List String := lines.filter (·.toList.head? = some 't')

def Json.extras? (j : Json) : Option (List (Int × Int)) := do
  (← (← j.field? "sweep").items?).mapM fun entry => do
    return (← (← entry.field? "target").number?, ← (← entry.field? "extra").number?)

namespace ClientLaunch

variable (l : ClientLaunch)

theorem targetHeadings_targetLines (target : UInt32) :
    targetHeadings (l.targetLines target) = [s!"target {target} (extra {l.extraFor target} per server)"] := by
  have commands : targetHeadings ((l.commandsFor target).map commandLine) = [] := by
    refine List.filter_eq_nil_iff.mpr fun line hline => ?_
    obtain ⟨c, -, rfl⟩ := List.mem_map.mp hline
    simp [commandLine]
  rw [targetLines, targetHeadings, List.filter_cons_of_pos (by simp [toString])]
  exact congrArg (_ :: ·) commands

theorem targetHeadings_planLines : targetHeadings l.planLines =
    l.targets.map fun target => s!"target {target} (extra {l.extraFor target} per server)" := by
  have unassigned : targetHeadings l.topology.unassignedLines = [] := by
    unfold Topology.unassignedLines
    split
    · rfl
    · simp [targetHeadings, toString]
  have targets : targetHeadings (l.targets.flatMap l.targetLines) =
      l.targets.map fun target => s!"target {target} (extra {l.extraFor target} per server)" := by
    rw [targetHeadings, List.filter_flatMap, List.map_eq_flatMap]
    exact congrArg (l.targets.flatMap ·) (funext l.targetHeadings_targetLines)
  rw [planLines, targetHeadings, List.filter_cons_of_neg (by simp [toString]), List.filter_append]
  change targetHeadings _ ++ targetHeadings _ = _
  rw [unassigned, targets, List.nil_append]

/-- A launch works with one number for each target: it tells it to every client, in decimal
    digits, and shows it in its plans. -/
structure WorksWith (fill : UInt32 → Int) : Prop where
  told : ∀ target, ∀ c ∈ l.commandsFor target, c.value? "-b" = some (toString (fill target))
  reported : ∀ target, l.extraFor target = fill target
  headings : targetHeadings l.planLines =
    l.targets.map fun target => s!"target {target} (extra {fill target} per server)"
  entries : l.planJson.extras? = some (l.targets.map fun target => ((target.toNat : Int), fill target))

theorem worksWith_extra : l.WorksWith l.topology.extra where
  told target c hc := by
    obtain ⟨slot, -, rfl⟩ := mem_commandsFor hc
    rw [ClientInvocation.value?_toCommand]
    rfl
  reported _ := rfl
  headings := l.targetHeadings_planLines
  entries := by
    refine mapM_map_some (fun target => ?_) l.targets
    rfl

end ClientLaunch

/-- Every client of every launch of a topology, whatever the VM, the parameters and the trials, is
    told the same number for a target, and the plans show this number: the largest that each
    server can add without the target being passed, negative if the clients alone pass it. -/
theorem clients_told_extra (t : Topology) :
    t.FillRule t.extra ∧
      ∀ v params targets trials l, (ClientLaunch.build t v params targets trials).result = .ok l →
        l.WorksWith t.extra := by
  refine ⟨t.fillRule, fun v params targets trials l built => ?_⟩
  obtain ⟨-, s, -, -, -, rfl⟩ := ClientLaunch.build_eq_ok_iff.mp built
  exact ClientLaunch.worksWith_extra _

/-- As many clients as there can be, each on a VM of its own, and four servers. For a target of 0
    each server is to take away a quarter of what the clients send, which is rounded away from
    zero. The clients of two VMs are told the same, with other parameters, targets and trials. -/
theorem clients_told_extra_most_clients :
    let t : Topology := ⟨4, 4294967295, 2, 4294967295, by decide, by decide, by decide, by decide⟩
    let params : ClientParams := {
      program := "client", serverIp := "::1", basePort := 7000, depth := 1, ret := .explicit, opt := none, rate := 1
      rounds := 1, out := "out", secret := "s" }
    let more : ClientParams := { params with rate := 9, rounds := 5 }
    t.extra 0 = -1073741824 ∧
      ∃ l l', (ClientLaunch.build t 0 params [0] 1).result = .ok l ∧
        (ClientLaunch.build t 1 more [4294967295, 0] 7).result = .ok l' ∧
        ∀ c ∈ l.commandsFor 0 ++ l'.commandsFor 0, c.value? "-b" = some "-1073741824" := by
  intro t params more
  obtain ⟨rule, works⟩ := clients_told_extra t
  have extra : t.extra 0 = -1073741824 := ((rule.reaches 0 _).mp (by unfold Topology.Reaches; decide)).symm
  have built : (ClientLaunch.build t 0 params [0] 1).result = .ok ⟨t, 0, ⟨0, 2⟩, [0], 1, params⟩ :=
    ClientLaunch.build_eq_ok_iff.mpr ⟨by decide, _, by decide, by decide, by decide, rfl⟩
  have built' : (ClientLaunch.build t 1 more [4294967295, 0] 7).result =
      .ok ⟨t, 1, ⟨2, 2⟩, [4294967295, 0], 7, more⟩ :=
    ClientLaunch.build_eq_ok_iff.mpr ⟨by decide, _, by decide, by decide, by decide, rfl⟩
  refine ⟨extra, _, _, built, built', fun c hc => ?_⟩
  rw [show "-1073741824" = toString (t.extra 0) by rw [extra]; rfl]
  rcases List.mem_append.mp hc with hc | hc
  · exact (works _ _ _ _ _ built).told 0 c hc
  · exact (works _ _ _ _ _ built').told 0 c hc

end Fleet
