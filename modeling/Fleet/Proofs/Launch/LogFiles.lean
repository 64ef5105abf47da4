/-
  Fleet.Proofs.Launch.LogFiles — who writes into which log file.

  Nothing but its path keeps a log apart from another: a worker opens the file and appends.
  A path is compared by its pieces (`Path.Same`), and a name without a slash is the last
  piece of its path, whatever directory it stands in (`Path.getLast?_pieces_join`). So two
  logs are one file only if their names are one text.

  A name is a row of numbers with letters between them. A number ends where the digits end,
  so a name is read from the left, one number at a time (`digits_append_inj`), and what is
  left behind the last is the optimization. A client's name starts with a digit and a
  server's does not.

  `logs_apart`: equal paths come from equal settings and never from both roles; clients of a
  sweep share a log exactly when they work on one target, and no two servers of an
  experiment share one.
-/

import Fleet.Proofs.Launch.Endpoints
import Fleet.Proofs.Launch.Runs
import Mathlib.Data.String.Basic

namespace Fleet

/-! ## Paths -/

namespace Path

/-- Two texts are the same path when they start at the same place and name the same pieces. -/
def Same (a b : String) : Prop := isAbsolute a = isAbsolute b ∧ pieces a = pieces b

theorem Same.of_eq {a b : String} (h : a = b) : Same a b := by
  subst h
  exact ⟨rfl, rfl⟩

theorem join_eq (dir name : String) : join dir name = name ∨ ∃ d, join dir name = d ++ "/" ++ name := by
  unfold join
  by_cases empty : dir.isEmpty = true
  · left
    rw [empty, String.isEmpty_iff.mp empty]
    exact String.empty_append
  · right
    by_cases slash : dir.endsWith '/' = true
    · obtain ⟨d, rfl⟩ := String.endsWith_char_iff_exists_append.mp slash
      exact ⟨d, by rw [slash, Bool.or_true, if_pos rfl]; rfl⟩
    · exact ⟨dir, by rw [if_neg (by simp [empty, slash])]⟩

theorem splitToList_name {name : String} (plain : '/' ∉ name.toList) : name.splitToList (· == '/') = [name] := by
  rw [String.splitToList_of_valid, List.splitOnP_eq_singleton, List.map_singleton, String.ofList_toList]
  intro c hc
  exact beq_false_of_ne fun slash => plain (slash ▸ hc)

theorem splitToList_behind_slash (d : String) {name : String} (plain : '/' ∉ name.toList) :
    (d ++ "/" ++ name).splitToList (· == '/') = d.splitToList (· == '/') ++ [name] := by
  have chars : (d ++ "/" ++ name).toList = d.toList ++ '/' :: name.toList := by simp
  rw [← splitToList_name plain]
  simp only [String.splitToList_of_valid]
  rw [chars, List.splitOnP_append_cons _ _ rfl, List.map_append]

/-- The last piece of a path is its name, if that names a place at all. -/
theorem getLast?_pieces_join (dir : String) {name : String} (plain : '/' ∉ name.toList) (nonempty : name ≠ "")
    (place : name ≠ ".") : (pieces (join dir name)).getLast? = some name := by
  have kept : (!name.isEmpty && name != ".") = true := by simp [nonempty, place]
  rcases join_eq dir name with h | ⟨d, h⟩
  · rw [h, pieces, splitToList_name plain]
    simp [nonempty]
  · rw [h, pieces, splitToList_behind_slash d plain]
    cases hd : d.splitToList (· == '/') with
    | nil => simp [nonempty]
    | cons first rest =>
      simp only [List.cons_append, List.filter_append, List.filter_cons, kept, if_true, List.filter_nil]
      rw [← List.append_assoc, List.getLast?_concat]

end Path

/-! ## Names -/

/-- A number that something other than a digit follows is known by its digits. -/
theorem digits_append_inj {a b : Nat} {c d : Char} {rest rest' : List Char} (hc : c.isDigit = false)
    (hd : d.isDigit = false) (h : a.repr.toList ++ c :: rest = b.repr.toList ++ d :: rest') :
    a = b ∧ c = d ∧ rest = rest' := by
  have front := congrArg (List.takeWhile Char.isDigit) h
  rw [List.takeWhile_append_of_pos fun _ => isDigit_of_mem_repr, List.takeWhile_cons_of_neg (by simp [hc]),
    List.append_nil, List.takeWhile_append_of_pos fun _ => isDigit_of_mem_repr,
    List.takeWhile_cons_of_neg (by simp [hd]), List.append_nil] at front
  obtain rfl : a = b := Nat.repr_injective (String.toList_injective front)
  obtain ⟨same, rest⟩ := List.cons.inj (List.append_cancel_left h)
  exact ⟨rfl, same, rest⟩

namespace LogPath

def ending (opt : Option Optimization) : List Char :=
  (match opt with | some o => '_' :: o.flag.toList | none => []) ++ ".log".toList

theorem ending_inj {opt opt' : Option Optimization} (h : ending opt = ending opt') : opt = opt' := by
  rcases opt with _ | _ | _ | _ <;> rcases opt' with _ | _ | _ | _ <;> first | rfl | exact absurd h (by decide)

/-- What follows the head of a name: the sizes of the experiment, its rate and its
    optimization. -/
def tail (servers clients vms rate : UInt32) (opt : Option Optimization) : List Char :=
  '_' :: (servers.toNat.repr.toList ++ 's' :: '_' :: (clients.toNat.repr.toList ++ 'c' :: '_' ::
    (vms.toNat.repr.toList ++ 'v' :: 'm' :: '_' :: (rate.toNat.repr.toList ++ 'k' :: ending opt))))

theorem toList_name (head : String) (t : Topology) (vms rate : UInt32) (opt : Option Optimization) :
    (name head t vms rate opt).toList = head.toList ++ tail t.totalServers t.totalClients vms rate opt := by
  have number (n : UInt32) : toString n = n.toNat.repr := rfl
  have text (s : String) : toString s = s := rfl
  cases opt <;> simp only [name, tail, ending, number, text, String.toList_append, List.append_assoc] <;> rfl

theorem tail_inj {servers servers' clients clients' vms vms' rate rate' : UInt32} {opt opt' : Option Optimization}
    (h : tail servers clients vms rate opt = tail servers' clients' vms' rate' opt') :
    servers = servers' ∧ clients = clients' ∧ vms = vms' ∧ rate = rate' ∧ opt = opt' := by
  obtain ⟨-, h⟩ := List.cons.inj h
  obtain ⟨hs, -, h⟩ := digits_append_inj rfl rfl h
  obtain ⟨-, h⟩ := List.cons.inj h
  obtain ⟨hc, -, h⟩ := digits_append_inj rfl rfl h
  obtain ⟨-, h⟩ := List.cons.inj h
  obtain ⟨hv, -, h⟩ := digits_append_inj rfl rfl h
  obtain ⟨-, h⟩ := List.cons.inj h
  obtain ⟨-, h⟩ := List.cons.inj h
  obtain ⟨hr, -, h⟩ := digits_append_inj rfl rfl h
  exact ⟨UInt32.toNat_inj.mp hs, UInt32.toNat_inj.mp hc, UInt32.toNat_inj.mp hv, UInt32.toNat_inj.mp hr, ending_inj h⟩

theorem slash_not_mem_tail (servers clients vms rate : UInt32) (opt : Option Optimization) :
    '/' ∉ tail servers clients vms rate opt := by
  have slash : '/'.isDigit = false := rfl
  have ending : '/' ∉ ending opt := by rcases opt with _ | _ | _ | _ <;> decide
  simp only [tail, List.mem_cons, List.mem_append, not_mem_repr _ slash, ending, or_false, false_or]
  decide

/-! ## Roles -/

theorem toList_clientHead (target : UInt32) : (toString target).toList = target.toNat.repr.toList := rfl

theorem toList_serverHead (id : UInt32) : s!"server{id}".toList = "server".toList ++ id.toNat.repr.toList :=
  String.toList_append

theorem slash_not_mem_clientHead (target : UInt32) : '/' ∉ (toString target).toList := not_mem_repr _ rfl

theorem slash_not_mem_serverHead (id : UInt32) : '/' ∉ s!"server{id}".toList := by
  rw [toList_serverHead, List.mem_append]
  exact not_or.mpr ⟨by decide, not_mem_repr _ rfl⟩

/-- Logs that are one file have one name, whatever directories they are below. -/
theorem name_of_same {dir dir' head head' : String} {t t' : Topology} {vms vms' rate rate' : UInt32}
    {opt opt' : Option Optimization} (plain : '/' ∉ head.toList) (plain' : '/' ∉ head'.toList)
    (h : Path.Same (Path.join dir (name head t vms rate opt)) (Path.join dir' (name head' t' vms' rate' opt'))) :
    head.toList ++ tail t.totalServers t.totalClients vms rate opt =
      head'.toList ++ tail t'.totalServers t'.totalClients vms' rate' opt' := by
  -- A name has a line in it that neither the empty text nor the dot has.
  have last (dir : String) {head : String} (t : Topology) (vms rate : UInt32) (opt : Option Optimization)
      (plain : '/' ∉ head.toList) :
      (Path.pieces (Path.join dir (name head t vms rate opt))).getLast? = some (name head t vms rate opt) := by
    have line : '_' ∈ (name head t vms rate opt).toList := by
      rw [toList_name]
      exact List.mem_append_right _ List.mem_cons_self
    refine Path.getLast?_pieces_join dir ?_ ?_ ?_
    · rw [toList_name, List.mem_append]
      exact not_or.mpr ⟨plain, slash_not_mem_tail _ _ _ _ _⟩
    · intro empty
      rw [empty] at line
      exact absurd line (by decide)
    · intro dot
      rw [dot] at line
      exact absurd line (by decide)
  have names := congrArg List.getLast? h.2
  rw [last dir t vms rate opt plain, last dir' t' vms' rate' opt' plain', Option.some.injEq] at names
  rw [← toList_name, ← toList_name, names]

variable {dir dir' : String} {t t' : Topology} {rate rate' : UInt32} {opt opt' : Option Optimization}

theorem client_of_same {target target' : UInt32}
    (h : Path.Same (client dir target t rate opt) (client dir' target' t' rate' opt')) :
    target = target' ∧ t.totalServers = t'.totalServers ∧ t.totalClients = t'.totalClients ∧
      t.clientVms = t'.clientVms ∧ rate = rate' ∧ opt = opt' := by
  have names := name_of_same (slash_not_mem_clientHead target) (slash_not_mem_clientHead target') h
  rw [toList_clientHead, toList_clientHead] at names
  obtain ⟨same, -, rest⟩ := digits_append_inj rfl rfl names
  exact ⟨UInt32.toNat_inj.mp same, tail_inj (congrArg _ rest)⟩

theorem server_of_same {id id' : UInt32}
    (h : Path.Same (server dir id t rate opt) (server dir' id' t' rate' opt')) :
    id = id' ∧ t.totalServers = t'.totalServers ∧ t.totalClients = t'.totalClients ∧
      t.serverVms = t'.serverVms ∧ rate = rate' ∧ opt = opt' := by
  have names := name_of_same (slash_not_mem_serverHead id) (slash_not_mem_serverHead id') h
  rw [toList_serverHead, toList_serverHead, List.append_assoc, List.append_assoc] at names
  obtain ⟨same, -, rest⟩ := digits_append_inj rfl rfl (List.append_cancel_left names)
  exact ⟨UInt32.toNat_inj.mp same, tail_inj (congrArg _ rest)⟩

/-- A client's log and a server's are two files: the one name starts with a digit. -/
theorem client_server_not_same {target id : UInt32} :
    ¬Path.Same (client dir target t rate opt) (server dir' id t' rate' opt') := by
  intro h
  have names := name_of_same (slash_not_mem_clientHead target) (slash_not_mem_serverHead id) h
  rw [toList_clientHead, toList_serverHead] at names
  cases head : target.toNat.repr.toList with
  | nil =>
    rw [head] at names
    exact absurd (List.cons.inj names).1 (by decide)
  | cons c digits =>
    rw [head] at names
    have first : c = 's' := (List.cons.inj names).1
    have digit := isDigit_of_mem_repr (n := target.toNat) (by rw [head]; exact List.mem_cons_self)
    rw [first] at digit
    cases digit

end LogPath

/-! ## Launches -/

def Command.SharesLog (c c' : Command) : Prop :=
  ∃ path path', c.output = .append path ∧ c'.output = .append path' ∧ Path.Same path path'

/-- Clients of a sweep share a log exactly when they work on one target, whatever their
    slots and trials are. -/
theorem ClientLaunch.sharesLog_iff {l : ClientLaunch} {target target' : UInt32} {c c' : Command}
    (hc : c ∈ l.commandsFor target) (hc' : c' ∈ l.commandsFor target') : c.SharesLog c' ↔ target = target' := by
  have output {target : UInt32} {c : Command} (hc : c ∈ l.commandsFor target) :
      c.output = .append (LogPath.client l.params.out target l.topology l.params.rate l.params.opt) := by
    rw [commandsFor, List.mem_map] at hc
    obtain ⟨i, hi, rfl⟩ := hc
    rw [invocationsFor, List.mem_map] at hi
    obtain ⟨slot, -, rfl⟩ := hi
    rfl
  constructor
  · rintro ⟨path, path', h, h', same⟩
    rw [output hc, Output.append.injEq] at h
    rw [output hc', Output.append.injEq] at h'
    rw [← h, ← h'] at same
    exact (LogPath.client_of_same same).1
  · rintro rfl
    exact ⟨_, _, output hc, output hc', rfl, rfl⟩

theorem ServerLaunch.output_of_getElem? {t : Topology} {v : UInt32} {params : ServerParams} {l : ServerLaunch}
    (built : (build t v params).result = .ok l) {k : Nat} {c : Command} (hc : l.commands[k]? = some c) :
    ∃ id : UInt32, k < t.serversPerVm.toNat ∧ id.toNat = v.toNat * t.serversPerVm.toNat + k ∧
      c.output = (ServerInvocation.of t params id).output := by
  obtain ⟨s, hs, -, rfl⟩ := build_eq_ok_iff.mp built
  have hsize := Topology.slice_size hs
  obtain ⟨hfirst, -⟩ := Topology.slice_bounds hs
  rw [getElem?_commands, getElem?_invocations] at hc
  split at hc
  · rename_i hk
    rw [Option.map_some, Option.some.injEq] at hc
    refine ⟨s.ids.first + .ofNat k, hsize ▸ hk, ?_, ?_⟩
    · rw [IdRange.toNat_add_ofNat hk, hfirst]
    · rw [← hc]
      rfl
  · cases hc

theorem ServerLaunch.sharesLog_iff {t : Topology} {v v' : UInt32} {params params' : ServerParams} {dir : OsText}
    (out : params.out = some dir) (out' : params'.out = some dir) (rate : params.rate = params'.rate)
    (opt : params.opt = params'.opt) {l l' : ServerLaunch} (built : (build t v params).result = .ok l)
    (built' : (build t v' params').result = .ok l') {k k' : Nat} {c c' : Command} (hc : l.commands[k]? = some c)
    (hc' : l'.commands[k']? = some c') : c.SharesLog c' ↔ v = v' ∧ k = k' := by
  obtain ⟨id, hk, hid, output⟩ := output_of_getElem? built hc
  obtain ⟨id', hk', hid', output'⟩ := output_of_getElem? built' hc'
  have share := t.serversPerVm_pos
  simp only [ServerInvocation.of, out] at output
  simp only [ServerInvocation.of, out'] at output'
  constructor
  · rintro ⟨path, path', h, h', same⟩
    rw [output, Output.append.injEq] at h
    rw [output', Output.append.injEq] at h'
    rw [← h, ← h'] at same
    obtain ⟨rfl, -⟩ := LogPath.server_of_same same
    -- An id has one VM and one place on it.
    rw [hid] at hid'
    have place := congrArg (· % t.serversPerVm.toNat) hid'
    have vm := congrArg (· / t.serversPerVm.toNat) hid'
    simp only [Nat.mul_add_mod_self_right, Nat.mod_eq_of_lt hk, Nat.mod_eq_of_lt hk'] at place
    simp only [Nat.mul_comm _ t.serversPerVm.toNat, Nat.mul_add_div share, Nat.div_eq_of_lt hk, Nat.div_eq_of_lt hk',
      Nat.add_zero] at vm
    exact ⟨UInt32.toNat_inj.mp vm, place⟩
  · rintro ⟨rfl, rfl⟩
    obtain rfl : id = id' := UInt32.toNat_inj.mp (hid.trans hid'.symm)
    rw [rate, opt] at output
    exact ⟨_, _, output, output', rfl, rfl⟩

/-- Below one directory, two clients' logs are one file exactly when the target and all that
    describes the experiment agree, two servers' when the id and all that do, and a client's
    and a server's never. So two commands of a sweep append to one file exactly when they
    work on one target, and over all server VMs of an experiment that keeps logs, two
    commands never do. -/
theorem logs_apart (dir : OsText) (t : Topology) :
    (∀ (t' : Topology) (rate rate' : UInt32) (opt opt' : Option Optimization),
      (∀ target target' : UInt32,
        Path.Same (LogPath.client dir.shown target t rate opt) (LogPath.client dir.shown target' t' rate' opt') ↔
          (target, t.totalServers, t.totalClients, t.clientVms, rate, opt) =
            (target', t'.totalServers, t'.totalClients, t'.clientVms, rate', opt')) ∧
      (∀ id id' : UInt32,
        Path.Same (LogPath.server dir.shown id t rate opt) (LogPath.server dir.shown id' t' rate' opt') ↔
          (id, t.totalServers, t.totalClients, t.serverVms, rate, opt) =
            (id', t'.totalServers, t'.totalClients, t'.serverVms, rate', opt')) ∧
      ∀ target id : UInt32,
        ¬Path.Same (LogPath.client dir.shown target t rate opt) (LogPath.server dir.shown id t' rate' opt')) ∧
    (∀ v params targets trials l, (ClientLaunch.build t v params targets trials).result = .ok l →
      ∀ r ∈ l.runs, ∀ r' ∈ l.runs, ∀ c ∈ l.commandsFor r.target, ∀ c' ∈ l.commandsFor r'.target,
        c.SharesLog c' ↔ r.target = r'.target) ∧
    ∀ params params' : ServerParams, params.out = some dir → params'.out = some dir → params.rate = params'.rate →
      params.opt = params'.opt → ∀ v v' l l', (ServerLaunch.build t v params).result = .ok l →
        (ServerLaunch.build t v' params').result = .ok l' →
        ∀ (k k' : Nat) (c c' : Command), l.commands[k]? = some c → l'.commands[k']? = some c' →
          (c.SharesLog c' ↔ v = v' ∧ k = k') := by
  refine ⟨fun t' rate rate' opt opt' => ⟨?clients, ?servers, ?roles⟩, ?sweep, ?fleet⟩
  case clients =>
    intro target target'
    simp only [Prod.mk.injEq]
    refine ⟨LogPath.client_of_same, ?_⟩
    rintro ⟨rfl, hs, hc, hv, rfl, rfl⟩
    refine .of_eq (congrArg (Path.join dir.shown) (String.toList_injective ?_))
    rw [LogPath.toList_name, LogPath.toList_name, hs, hc, hv]
  case servers =>
    intro id id'
    simp only [Prod.mk.injEq]
    refine ⟨LogPath.server_of_same, ?_⟩
    rintro ⟨rfl, hs, hc, hv, rfl, rfl⟩
    refine .of_eq (congrArg (Path.join dir.shown) (String.toList_injective ?_))
    rw [LogPath.toList_name, LogPath.toList_name, hs, hc, hv]
  case roles =>
    intro target id
    exact LogPath.client_server_not_same
  case sweep =>
    intro v params targets trials l _ r _ r' _ c hc c' hc'
    exact ClientLaunch.sharesLog_iff hc hc'
  case fleet =>
    intro params params' out out' rate opt v v' l l' built built' k k' c c' hc hc'
    exact ServerLaunch.sharesLog_iff out out' rate opt built built' hc hc'

/-- Four servers on two VMs and a sweep over two targets, the one the start of the other: two
    clients of one target share a log, clients of the two do not, and neither do the first
    servers of the VMs. -/
theorem logs_apart_on_two_vms :
    let t : Topology := ⟨4, 4, 2, 2, by decide, by decide, by decide, by decide⟩
    let clients : ClientParams := ⟨"client", "::1", 8000, 2, .bloom, none, 1, 10, "logs", "s"⟩
    let servers (ip : String) : ServerParams := ⟨"server", ip, 8000, 2, .bloom, none, 1, "hosts.txt", some "logs"⟩
    ∃ l one two c c' d s s', (ClientLaunch.build t 0 clients [7, 71] 2).result = .ok l ∧
      (ServerLaunch.build t 0 (servers "::1")).result = .ok one ∧
      (ServerLaunch.build t 1 (servers "::2")).result = .ok two ∧ (l.commandsFor 7)[0]? = some c ∧
      (l.commandsFor 7)[1]? = some c' ∧ (l.commandsFor 71)[0]? = some d ∧ one.commands[0]? = some s ∧
      two.commands[0]? = some s' ∧ c.SharesLog c' ∧ ¬c.SharesLog d ∧ ¬s.SharesLog s' := by
  intro t clients servers
  obtain ⟨-, sweep, fleet⟩ := logs_apart "logs" t
  have slice (v : UInt32) (h : v < t.serverVms) : t.slice v = .ok ⟨v * t.serversPerVm, t.serversPerVm⟩ :=
    t.slice_eq_ok_iff.mpr ⟨h, rfl⟩
  let l : ClientLaunch := ⟨t, 0, ⟨0 * t.serversPerVm, t.serversPerVm⟩, [7, 71], 2, clients⟩
  have built : (ClientLaunch.build t 0 clients [7, 71] 2).result = .ok l :=
    ClientLaunch.build_eq_ok_iff.mpr ⟨by decide, _, slice 0 (by decide), by decide, by decide, rfl⟩
  have first : (ServerLaunch.build t 0 (servers "::1")).result = .ok _ :=
    ServerLaunch.build_eq_ok_iff.mpr ⟨_, slice 0 (by decide), by decide, rfl⟩
  have second : (ServerLaunch.build t 1 (servers "::2")).result = .ok _ :=
    ServerLaunch.build_eq_ok_iff.mpr ⟨_, slice 1 (by decide), by decide, rfl⟩
  have clientsPerVm : l.topology.clientsPerVm.toNat = 2 := by decide
  have client (target : UInt32) (k : Nat) (hk : k < 2) : ∃ c, (l.commandsFor target)[k]? = some c :=
    ⟨_, List.getElem?_eq_getElem (by rw [l.length_commandsFor, clientsPerVm]; exact hk)⟩
  have server {l : ServerLaunch} (h : l.commands ≠ []) : ∃ c, l.commands[0]? = some c :=
    ⟨_, List.getElem?_eq_getElem (List.length_pos_iff.mpr h)⟩
  obtain ⟨c, hc⟩ := client 7 0 (by decide)
  obtain ⟨c', hc'⟩ := client 7 1 (by decide)
  obtain ⟨d, hd⟩ := client 71 0 (by decide)
  obtain ⟨s, hs⟩ := server (ServerLaunch.commands_ne_nil first)
  obtain ⟨s', hs'⟩ := server (ServerLaunch.commands_ne_nil second)
  refine ⟨l, _, _, c, c', d, s, s', built, first, second, hc, hc', hd, hs, hs', ?_, ?_, ?_⟩
  · have shares := sweep 0 clients [7, 71] 2 l built ⟨7, 0⟩ (by decide) ⟨7, 1⟩ (by decide)
    exact (shares c (List.mem_of_getElem? hc) c' (List.mem_of_getElem? hc')).mpr rfl
  · intro shared
    have shares := sweep 0 clients [7, 71] 2 l built ⟨7, 0⟩ (by decide) ⟨71, 0⟩ (by decide)
    exact absurd ((shares c (List.mem_of_getElem? hc) d (List.mem_of_getElem? hd)).mp shared) (by decide)
  · intro shared
    have shares := fleet (servers "::1") (servers "::2") rfl rfl rfl rfl 0 1 _ _ first second 0 0 s s' hs hs'
    exact absurd (shares.mp shared).1 (by decide)

end Fleet
