/-
  Fleet.Proofs.Settings.Precedence — where a setting comes from. Whatever the setting, its
  flag goes before the settings file, and the file before a default (`inForce`); a launch
  looks at nothing but the values in force.

  The settings of each role are listed by name (`ServerSetting`, `ClientSetting`,
  `PacingSetting`), and for each name it is said what a flag gives, what the file says and
  what the default is. `ServerFlags.launch_eq_of_file`: a launch is the launch of a file
  that holds its values in force, with no flags at all. So two launches with the same
  values in force are the same launch, down to the error and to every word of the log.
-/

import Fleet.Settings.Resolve

namespace Fleet

/-! ## Precedence -/

def inForce {α : Type} (flag file : Option α) (default : α) : α :=
  match flag, file with
  | some v, _ => v
  | none, some v => v
  | none, none => default

section InForce

variable {α : Type}

theorem inForce_eq (flag file : Option α) (default : α) : inForce flag file default = (flag <|> file).getD default := by
  cases flag <;> cases file <;> rfl

theorem inForce_map_some (flag file : Option α) : inForce (flag.map some) (file.map some) none = (flag <|> file) := by
  cases flag <;> cases file <;> rfl

theorem inForce_switch (flag : Bool) (file : Option Bool) :
    inForce (if flag then some true else none) file false = (flag || file.getD false) := by
  cases flag <;> cases file <;> rfl

theorem inForce_list (flag : List α) (file : Option (List α)) (default : List α) :
    inForce (if flag = [] then none else some flag) file default = if flag = [] then file.getD default else flag := by
  cases flag <;> cases file <;> rfl

end InForce

section Family

variable {ι : Type} {V : ι → Type} {given given' written written' : ∀ i, Option (V i)}

def allInForce (given written : ∀ i, Option (V i)) (default : ∀ i, V i) (i : ι) : V i :=
  inForce (given i) (written i) (default i)

theorem allInForce_of_shadowed (default : ∀ i, V i) (same : ∀ i, given i = none → written i = written' i) :
    allInForce given written default = allInForce given written' default := by
  funext i
  unfold allInForce
  cases h : given i with
  | none => rw [same i h]
  | some v => rfl

/-- Some of the settings that are given are left away instead, and the file says what they
    were. -/
def Moved (given written given' written' : ∀ i, Option (V i)) : Prop :=
  ∀ i, (given' i = given i ∧ written' i = written i) ∨ ((given i).isSome ∧ given' i = none ∧ written' i = given i)

theorem allInForce_of_moved (default : ∀ i, V i) (moved : Moved given written given' written') :
    allInForce given' written' default = allInForce given written default := by
  funext i
  unfold allInForce
  rcases moved i with ⟨hg, hw⟩ | ⟨some, hg, hw⟩
  · rw [hg, hw]
  · obtain ⟨v, hv⟩ := Option.isSome_iff_exists.mp some
    rw [hg, hw, hv]
    rfl

end Family

/-! ## The settings of both roles -/

inductive SharedSetting where
  | totalServers
  | totalClients
  | serverVms
  | clientVms
  | vmId
  | strict
  | rate
  | opt
  | ret
  | depth
  | port
  deriving DecidableEq, Repr

namespace SharedSetting

def Value : SharedSetting → Type
  | .totalServers | .totalClients | .serverVms | .clientVms | .vmId | .rate | .depth => UInt32
  | .strict => Bool
  | .opt => Option Optimization
  | .ret => Retrieval
  | .port => UInt16

def given (t : TopologyFlags) (e : ExperimentFlags) : (s : SharedSetting) → Option s.Value
  | .totalServers => t.totalServers
  | .totalClients => t.totalClients
  | .serverVms => t.serverVms
  | .clientVms => t.clientVms
  | .vmId => t.vmId
  | .strict => if t.strict then some true else none
  | .rate => e.rate
  | .opt => e.opt.map some
  | .ret => e.ret
  | .depth => e.depth
  | .port => e.port

def written (file : FileSettings) : (s : SharedSetting) → Option s.Value
  | .totalServers => file.topology.totalServers
  | .totalClients => file.topology.totalClients
  | .serverVms => file.topology.serverVms
  | .clientVms => file.topology.clientVms
  | .vmId => file.topology.vmId
  | .strict => file.launch.strict
  | .rate => file.retrieval.rate
  | .opt => file.retrieval.opt.map some
  | .ret => file.retrieval.ret
  | .depth => file.retrieval.depth
  | .port => file.retrieval.port

def default : (s : SharedSetting) → s.Value
  | .totalServers | .totalClients | .serverVms | .clientVms | .rate => (1 : UInt32)
  | .vmId => (0 : UInt32)
  | .strict => false
  | .opt => none
  | .ret => Retrieval.bloom
  | .depth => Default.depth
  | .port => Default.port

end SharedSetting

def sharedInForce (t : TopologyFlags) (e : ExperimentFlags) (file : FileSettings) : ∀ s : SharedSetting, s.Value :=
  allInForce (SharedSetting.given t e) (SharedSetting.written file) SharedSetting.default

def FileSettings.ofShared (v : ∀ s : SharedSetting, s.Value) : FileSettings where
  topology := {
    totalServers := some (v .totalServers), totalClients := some (v .totalClients), serverVms := some (v .serverVms)
    clientVms := some (v .clientVms), vmId := some (v .vmId) }
  retrieval := {
    rate := some (v .rate), opt := v .opt, ret := some (v .ret), depth := some (v .depth), port := some (v .port) }
  launch := { strict := some (v .strict) }

section Shared

variable (t : TopologyFlags) (e : ExperimentFlags) (file : FileSettings)

theorem TopologyFlags.resolve_eq_of_file :
    t.resolve file = ({} : TopologyFlags).resolve (.ofShared (sharedInForce t e file)) := by
  have strict : sharedInForce t e file .strict = (t.strict || file.launch.strict.getD false) :=
    inForce_switch t.strict file.launch.strict
  simp only [resolve, FileSettings.ofShared, strict]
  simp only [sharedInForce, allInForce, inForce_eq]
  rfl

theorem ExperimentFlags.resolve_eq_of_file :
    e.resolve file = ({} : ExperimentFlags).resolve (.ofShared (sharedInForce t e file)) := by
  have opt : sharedInForce t e file .opt = (e.opt <|> file.retrieval.opt) := inForce_map_some e.opt file.retrieval.opt
  simp only [resolve, FileSettings.ofShared, opt]
  simp only [sharedInForce, allInForce, inForce_eq]
  rfl

end Shared

/-! ## Servers -/

inductive ServerSetting where
  | shared (s : SharedSetting)
  | bin
  | ip
  | hostFile
  | out
  deriving DecidableEq, Repr

namespace ServerSetting

def Value : ServerSetting → Type
  | .shared s => s.Value
  | .bin | .ip => String
  | .hostFile => OsText
  | .out => Option OsText

def given (f : ServerFlags) : (s : ServerSetting) → Option s.Value
  | .shared s => s.given f.topology f.experiment
  | .bin => f.serverBin
  | .ip => f.ip
  | .hostFile => f.hostFile
  | .out => f.out.map some

def written (file : FileSettings) : (s : ServerSetting) → Option s.Value
  | .shared s => s.written file
  | .bin => file.binaries.server
  | .ip => file.server.ip
  | .hostFile => file.server.hostFile
  | .out => file.server.out.map some

def default (localIp : String) : (s : ServerSetting) → s.Value
  | .shared s => s.default
  | .bin => Default.serverBin
  | .ip => localIp
  | .hostFile => Default.hostFile
  | .out => none

end ServerSetting

def ServerFlags.valuesInForce (f : ServerFlags) (file : FileSettings) (localIp : String) : ∀ s : ServerSetting, s.Value :=
  allInForce (ServerSetting.given f) (ServerSetting.written file) (ServerSetting.default localIp)

def FileSettings.ofServer (v : ∀ s : ServerSetting, s.Value) : FileSettings :=
  { FileSettings.ofShared fun s => v (.shared s) with
    binaries := { server := some (v .bin) }
    server := { ip := some (v .ip), hostFile := some (v .hostFile), out := v .out } }

theorem ServerFlags.launch_eq_of_file (f : ServerFlags) (file : FileSettings) (localIp : String) :
    f.launch file localIp = ({} : ServerFlags).launch (.ofServer (f.valuesInForce file localIp)) localIp := by
  have params (e : Experiment) : f.params file localIp e =
      ({} : ServerFlags).params (.ofServer (f.valuesInForce file localIp)) localIp e := by
    have out : f.valuesInForce file localIp .out = (f.out <|> file.server.out) :=
      inForce_map_some f.out file.server.out
    simp only [ServerFlags.params, program, FileSettings.ofServer, out]
    simp only [valuesInForce, allInForce, inForce_eq]
    rfl
  simp only [launch, f.topology.resolve_eq_of_file f.experiment file, f.experiment.resolve_eq_of_file f.topology file,
    params]
  rfl

/-! ## Clients -/

inductive ClientSetting where
  | shared (s : SharedSetting)
  | bin
  | num
  | trial
  | rounds
  | ip
  | out
  | secret
  deriving DecidableEq, Repr

namespace ClientSetting

def Value : ClientSetting → Type
  | .shared s => s.Value
  | .bin | .ip | .out | .secret => String
  | .num => List UInt32
  | .trial | .rounds => UInt32

def given (f : ClientFlags) : (s : ClientSetting) → Option s.Value
  | .shared s => s.given f.topology f.experiment
  | .bin => f.clientBin
  | .num => if f.num = [] then none else some f.num
  | .trial => f.trial
  | .rounds => f.rounds
  | .ip => f.ip
  | .out => f.out
  | .secret => f.secret

def written (file : FileSettings) : (s : ClientSetting) → Option s.Value
  | .shared s => s.written file
  | .bin => file.binaries.client
  | .num => file.client.num
  | .trial => file.client.trial
  | .rounds => file.client.rounds
  | .ip => file.client.ip
  | .out => file.client.out
  | .secret => file.client.secret

def default : (s : ClientSetting) → s.Value
  | .shared s => s.default
  | .bin => Default.clientBin
  | .num => [Default.target]
  | .trial => (1 : UInt32)
  | .rounds => Default.rounds
  | .ip => Default.serverIp
  | .out => Default.clientOut
  | .secret => Default.secret

end ClientSetting

def ClientFlags.valuesInForce (f : ClientFlags) (file : FileSettings) : ∀ s : ClientSetting, s.Value :=
  allInForce (ClientSetting.given f) (ClientSetting.written file) ClientSetting.default

def FileSettings.ofClient (v : ∀ s : ClientSetting, s.Value) : FileSettings :=
  { FileSettings.ofShared fun s => v (.shared s) with
    binaries := { client := some (v .bin) }
    client := {
      ip := some (v .ip), num := some (v .num), trial := some (v .trial), rounds := some (v .rounds)
      out := some (v .out), secret := some (v .secret) } }

theorem ClientFlags.launch_eq_of_file (f : ClientFlags) (file : FileSettings) :
    f.launch file = ({} : ClientFlags).launch (.ofClient (f.valuesInForce file)) := by
  have params (e : Experiment) :
      f.params file e = ({} : ClientFlags).params (.ofClient (f.valuesInForce file)) e := by
    simp only [ClientFlags.params, program, FileSettings.ofClient]
    simp only [valuesInForce, allInForce, inForce_eq]
    rfl
  have targets : f.targets file = ({} : ClientFlags).targets (.ofClient (f.valuesInForce file)) :=
    (inForce_list f.num file.client.num [Default.target]).symm
  have trial : (f.trial <|> file.client.trial).getD 1 = f.valuesInForce file .trial :=
    (inForce_eq f.trial file.client.trial 1).symm
  simp only [launch, f.topology.resolve_eq_of_file f.experiment file, f.experiment.resolve_eq_of_file f.topology file,
    params, targets, trial]
  rfl

/-! ## Pacing -/

inductive PacingSetting where
  | settle
  | workerTimeout
  deriving DecidableEq, Repr

namespace PacingSetting

def Value : PacingSetting → Type
  | .settle => UInt64
  | .workerTimeout => Option UInt64

def given (f : RunFlags) : (s : PacingSetting) → Option s.Value
  | .settle => f.settle
  | .workerTimeout => f.workerTimeout.map some

def written (file : FileSettings) : (s : PacingSetting) → Option s.Value
  | .settle => file.launch.settleSecs
  | .workerTimeout => file.launch.workerTimeoutSecs.map some

def default : (s : PacingSetting) → s.Value
  | .settle => Default.settleSecs
  | .workerTimeout => none

end PacingSetting

def RunFlags.valuesInForce (f : RunFlags) (file : FileSettings) : ∀ s : PacingSetting, s.Value :=
  allInForce (PacingSetting.given f) (PacingSetting.written file) PacingSetting.default

def FileSettings.ofPacing (v : ∀ s : PacingSetting, s.Value) : FileSettings where
  launch := { settleSecs := some (v .settle), workerTimeoutSecs := v .workerTimeout }

theorem RunFlags.pacing_eq_of_file (f : RunFlags) (file : FileSettings) :
    f.pacing file = ({} : RunFlags).pacing (.ofPacing (f.valuesInForce file)) := by
  have timeout : f.valuesInForce file .workerTimeout = (f.workerTimeout <|> file.launch.workerTimeoutSecs) :=
    inForce_map_some f.workerTimeout file.launch.workerTimeoutSecs
  simp only [pacing, FileSettings.ofPacing, timeout]
  simp only [valuesInForce, allInForce, inForce_eq]
  rfl

/-! ## What decides a launch -/

/-- A result that flags and a file lead to is decided by the values in force. -/
structure Precedence {ι : Type} {V : ι → Type} {F R : Type} (given : F → ∀ i, Option (V i))
    (written : FileSettings → ∀ i, Option (V i)) (default : ∀ i, V i) (result : F → FileSettings → R) : Prop where
  decided : ∀ f f' file file', (∀ i, inForce (given f i) (written file i) (default i) =
    inForce (given f' i) (written file' i) (default i)) → result f file = result f' file'
  shadowed : ∀ f file file', (∀ i, given f i = none → written file i = written file' i) →
    result f file = result f file'
  moved : ∀ f f' file file', Moved (given f) (written file) (given f') (written file') →
    result f' file' = result f file

theorem Precedence.of_file {ι : Type} {V : ι → Type} {F R : Type} {given : F → ∀ i, Option (V i)}
    {written : FileSettings → ∀ i, Option (V i)} {default : ∀ i, V i} {result : F → FileSettings → R} (flags : F)
    (spell : (∀ i, V i) → FileSettings)
    (eq : ∀ f file, result f file = result flags (spell (allInForce (given f) (written file) default))) :
    Precedence given written default result where
  decided f f' file file' same := by
    have same : allInForce (given f) (written file) default = allInForce (given f') (written file') default :=
      funext same
    rw [eq f file, eq f' file', same]
  shadowed f file file' same := by
    rw [eq f file, eq f file', allInForce_of_shadowed default same]
  moved f f' file file' moved := by
    rw [eq f file, eq f' file', allInForce_of_moved default moved]

/-- The values in force decide a server launch, a client launch and a pacing: for each
    setting the flag, or else the file, or else a default, and strictness by either. A
    server launch does not look at what a file says to the clients, nor a client launch at
    what it says to the servers. -/
theorem values_in_force_decide (localIp : String) :
    Precedence ServerSetting.given ServerSetting.written (ServerSetting.default localIp)
      (fun f file => f.launch file localIp) ∧
    Precedence ClientSetting.given ClientSetting.written ClientSetting.default (fun f file => f.launch file) ∧
    Precedence PacingSetting.given PacingSetting.written PacingSetting.default (fun f file => f.pacing file) ∧
    (∀ (t : TopologyFlags) (e : ExperimentFlags) (file : FileSettings),
      inForce (SharedSetting.given t e .strict) (SharedSetting.written file .strict) (SharedSetting.default .strict) =
        (t.strict || file.launch.strict.getD false)) ∧
    (∀ (f : ServerFlags) (file : FileSettings) (bin : Option String) (section' : ClientSection),
      f.launch { file with binaries.client := bin, client := section' } localIp = f.launch file localIp) ∧
    ∀ (f : ClientFlags) (file : FileSettings) (bin : Option String) (section' : ServerSection),
      f.launch { file with binaries.server := bin, server := section' } = f.launch file := by
  refine ⟨.of_file {} FileSettings.ofServer fun f file => f.launch_eq_of_file file localIp,
    .of_file {} FileSettings.ofClient ClientFlags.launch_eq_of_file,
    .of_file {} FileSettings.ofPacing RunFlags.pacing_eq_of_file, fun t e file => ?_, fun f file bin section' => rfl,
    fun f file bin section' => rfl⟩
  exact inForce_switch t.strict file.launch.strict

/-- The targets, the rate and strictness are left away and written into the file instead,
    over what it said before. -/
theorem values_in_force_decide_moved :
    let f : ClientFlags := {
      topology := { totalClients := some 4, strict := true }, experiment := { rate := some 3, depth := some 5 }
      num := [7, 9] }
    let f' : ClientFlags := { topology := { totalClients := some 4 }, experiment := { depth := some 5 } }
    let file : FileSettings := { retrieval := { rate := some 1, opt := some .hybrid2 }, client := { num := some [5] } }
    let file' : FileSettings := {
      retrieval := { rate := some 3, opt := some .hybrid2 }, client := { num := some [7, 9] }
      launch := { strict := some true } }
    f'.launch file' = f.launch file ∧ ∃ l, (f.launch file).result = .ok l := by
  intro f f' file file'
  obtain ⟨-, clients, -⟩ := values_in_force_decide "10.0.0.1"
  constructor
  · apply clients.moved
    intro s
    cases s with
    | shared s =>
      cases s with
      | strict => exact .inr ⟨rfl, rfl, rfl⟩
      | rate => exact .inr ⟨rfl, rfl, rfl⟩
      | _ => exact .inl ⟨rfl, rfl⟩
    | num => exact .inr ⟨rfl, rfl, rfl⟩
    | _ => exact .inl ⟨rfl, rfl⟩
  · unfold f file
    exact ⟨_, rfl⟩

end Fleet
