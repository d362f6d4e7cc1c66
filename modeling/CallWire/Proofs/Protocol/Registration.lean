import CallWire.Protocol.Table
import Mathlib.Data.List.Induction
import Mathlib.Data.List.Sort

/-!
# CallWire.Proofs.Protocol.Registration — a protocol holds what was registered

Each role of a protocol is the table of the entries registered in it, whatever was registered in the
other role.  What a later entry would replace, the builder remembers; so a protocol comes of the
registrations only if nothing was replaced, and then the order of the registrations does not show.
-/

namespace CallWire

namespace CommandTable

variable {α : Type} {t t' : CommandTable α} {command c : UInt32} {a b : α}

/-! ### Lookups -/

theorem get?_cons (k : UInt32) (a : α) (t : CommandTable α) (c : UInt32) :
    get? ((k, a) :: t) c = if k = c then some a else t.get? c := rfl

theorem get?_insert :
    (t.insert command a).get? c = if command = c then some a else t.get? c := by
  induction t with
  | nil => rfl
  | cons e t ih =>
    obtain ⟨k, b⟩ := e
    unfold insert
    by_cases hk : k = command
    · rw [if_pos hk, get?_cons, get?_cons, hk]
      split_ifs
      · rfl
      · rfl
    · rw [if_neg hk]
      by_cases hlt : command < k
      · rw [if_pos hlt, get?_cons]
      · rw [if_neg hlt, get?_cons, get?_cons, ih]
        split_ifs with hkc hc
        · exact absurd (hkc.trans hc.symm) hk
        · rfl
        · rfl
        · rfl

theorem mem_of_get? (h : t.get? c = some a) : (c, a) ∈ t := by
  induction t with
  | nil => cases h
  | cons e t ih =>
    obtain ⟨k, b⟩ := e
    unfold get? at h
    split_ifs at h with hk
    · obtain rfl := Option.some.inj h
      rw [hk]
      exact List.mem_cons_self
    · exact List.mem_cons_of_mem _ (ih h)

theorem mem_of_mem_insert {e : UInt32 × α} (h : e ∈ t.insert command a) :
    e = (command, a) ∨ e ∈ t := by
  induction t with
  | nil => exact .inl (List.mem_singleton.mp h)
  | cons first t ih =>
    obtain ⟨k, b⟩ := first
    unfold insert at h
    split_ifs at h
    · rcases List.mem_cons.mp h with rfl | h
      · exact .inl rfl
      · exact .inr (List.mem_cons_of_mem _ h)
    · rcases List.mem_cons.mp h with rfl | h
      · exact .inl rfl
      · exact .inr h
    · rcases List.mem_cons.mp h with rfl | h
      · exact .inr List.mem_cons_self
      · rcases ih h with rfl | h
        · exact .inl rfl
        · exact .inr (List.mem_cons_of_mem _ h)

/-! ### The order of a table -/

def IsAscending (t : CommandTable α) : Prop := t.Pairwise fun e e' => e.1 < e'.1

theorem IsAscending.insert (h : t.IsAscending) (command : UInt32) (a : α) :
    (t.insert command a).IsAscending := by
  induction t with
  | nil => exact List.pairwise_singleton _ _
  | cons e t ih =>
    obtain ⟨k, b⟩ := e
    obtain ⟨hfirst, hrest⟩ := List.pairwise_cons.mp h
    unfold CommandTable.insert
    split_ifs with hk hlt
    · subst hk
      exact List.pairwise_cons.mpr ⟨hfirst, hrest⟩
    · refine List.pairwise_cons.mpr ⟨fun e he => ?_, h⟩
      rcases List.mem_cons.mp he with rfl | he
      · exact hlt
      · exact UInt32.lt_trans hlt (hfirst e he)
    · refine List.pairwise_cons.mpr ⟨fun e he => ?_, ih hrest⟩
      rcases mem_of_mem_insert he with rfl | he
      · exact UInt32.lt_of_le_of_ne (UInt32.not_lt.mp hlt) hk
      · exact hfirst e he

theorem IsAscending.get?_eq_some_iff (h : t.IsAscending) :
    t.get? c = some a ↔ (c, a) ∈ t := by
  refine ⟨mem_of_get?, fun hmem => ?_⟩
  induction t with
  | nil => cases hmem
  | cons e t ih =>
    obtain ⟨k, b⟩ := e
    obtain ⟨hfirst, hrest⟩ := List.pairwise_cons.mp h
    rcases List.mem_cons.mp hmem with heq | hmem
    · obtain ⟨rfl, rfl⟩ := Prod.mk.inj heq
      exact if_pos rfl
    · have hne : k ≠ c := UInt32.ne_of_lt (hfirst (c, a) hmem)
      exact (if_neg hne).trans (ih hrest hmem)

theorem IsAscending.ext (h : t.IsAscending) (h' : t'.IsAscending)
    (hget : ∀ c a, t.get? c = some a ↔ t'.get? c = some a) : t = t' := by
  have : Std.Irrefl fun e e' : UInt32 × α => e.1 < e'.1 := ⟨fun e => UInt32.lt_irrefl e.1⟩
  have : Std.Antisymm fun e e' : UInt32 × α => e.1 < e'.1 :=
    ⟨fun e e' hlt hgt => absurd hgt (UInt32.lt_asymm hlt)⟩
  refine List.Pairwise.eq_of_mem_iff h h' fun e => ?_
  rw [← h.get?_eq_some_iff, ← h'.get?_eq_some_iff]
  exact hget e.1 e.2

theorem IsAscending.pairwise_commands (h : t.IsAscending) : t.commands.Pairwise (· < ·) :=
  List.pairwise_map.mpr h

/-! ### The table of some entries -/

/-- The table into which these entries are inserted in turn. -/
def ofEntries (entries : List (UInt32 × α)) : CommandTable α :=
  entries.foldl (fun t e => t.insert e.1 e.2) []

variable {entries entries' : List (UInt32 × α)}

theorem ofEntries_concat (entries : List (UInt32 × α)) (e : UInt32 × α) :
    ofEntries (entries ++ [e]) = (ofEntries entries).insert e.1 e.2 := by
  unfold ofEntries
  rw [List.foldl_append]
  rfl

theorem isAscending_ofEntries (entries : List (UInt32 × α)) :
    (ofEntries entries).IsAscending := by
  induction entries using List.reverseRecOn with
  | nil => exact List.Pairwise.nil
  | append_singleton entries e ih =>
    rw [ofEntries_concat]
    exact ih.insert e.1 e.2

theorem mem_of_get?_ofEntries (h : (ofEntries entries).get? c = some a) : (c, a) ∈ entries := by
  induction entries using List.reverseRecOn with
  | nil => cases h
  | append_singleton entries e ih =>
    rw [ofEntries_concat, get?_insert] at h
    split_ifs at h with hc
    · obtain rfl := Option.some.inj h
      rw [← hc]
      exact List.mem_append_right _ List.mem_cons_self
    · exact List.mem_append_left _ (ih h)

theorem isSome_get?_ofEntries :
    ((ofEntries entries).get? c).isSome ↔ c ∈ entries.map (·.1) := by
  induction entries using List.reverseRecOn with
  | nil => simp [ofEntries, get?]
  | append_singleton entries e ih =>
    rw [ofEntries_concat, get?_insert, List.map_append, List.mem_append]
    split_ifs with hc
    · simp [hc]
    · rw [ih]
      simp [Ne.symm hc]

theorem get?_ofEntries_eq_some_iff (h : (entries.map (·.1)).Nodup) :
    (ofEntries entries).get? c = some a ↔ (c, a) ∈ entries := by
  refine ⟨mem_of_get?_ofEntries, fun hmem => ?_⟩
  have hsome : ((ofEntries entries).get? c).isSome :=
    isSome_get?_ofEntries.mpr (List.mem_map.mpr ⟨(c, a), hmem, rfl⟩)
  obtain ⟨b, hb⟩ := Option.isSome_iff_exists.mp hsome
  have heq := List.inj_on_of_nodup_map h (mem_of_get?_ofEntries hb) hmem rfl
  rw [hb, (Prod.mk.inj heq).2]

theorem ofEntries_eq_of_perm (h : (entries.map (·.1)).Nodup) (hperm : entries.Perm entries') :
    ofEntries entries = ofEntries entries' := by
  have h' : (entries'.map (·.1)).Nodup := (hperm.map _).nodup_iff.mp h
  refine (isAscending_ofEntries entries).ext (isAscending_ofEntries entries') fun c a => ?_
  rw [get?_ofEntries_eq_some_iff h, get?_ofEntries_eq_some_iff h']
  exact hperm.mem_iff

end CommandTable

namespace Registration

variable {registrations registrations' : List Registration}

/-! ### What is registered -/

def key : Registration → Role × UInt32
  | sends command _ => (.sent, command)
  | handles command _ => (.handled, command)

def sent? : Registration → Option (UInt32 × CommandTypes)
  | sends command types => some (command, types)
  | handles _ _ => none

def handled? : Registration → Option (UInt32 × HandledCommand)
  | sends _ _ => none
  | handles command entry => some (command, entry)

def commandsIn (role : Role) (registrations : List Registration) : List UInt32 :=
  registrations.filterMap fun r => if r.key.1 = role then some r.key.2 else none

/-- An earlier registration has the same role and command. -/
def isRepeat (registrations : List Registration) (e : Registration × Nat) : Bool :=
  e.1.key ∈ (registrations.take e.2).map key

/-- The registrations that repeat an earlier one, in order. -/
def repeated (registrations : List Registration) : List (Role × UInt32) :=
  (registrations.zipIdx.filter (isRepeat registrations)).map (·.1.key)

theorem mem_filterMap_sent? {command : UInt32} {types : CommandTypes} :
    (command, types) ∈ registrations.filterMap sent? ↔ sends command types ∈ registrations := by
  rw [List.mem_filterMap]
  constructor
  · rintro ⟨r, hr, heq⟩
    cases r with
    | sends k t =>
      obtain ⟨rfl, rfl⟩ := Prod.mk.inj (Option.some.inj heq)
      exact hr
    | handles k e => cases heq
  · exact fun h => ⟨_, h, rfl⟩

theorem mem_filterMap_handled? {command : UInt32} {entry : HandledCommand} :
    (command, entry) ∈ registrations.filterMap handled? ↔
      handles command entry ∈ registrations := by
  rw [List.mem_filterMap]
  constructor
  · rintro ⟨r, hr, heq⟩
    cases r with
    | sends k t => cases heq
    | handles k e =>
      obtain ⟨rfl, rfl⟩ := Prod.mk.inj (Option.some.inj heq)
      exact hr
  · exact fun h => ⟨_, h, rfl⟩

theorem map_filterMap_sent? :
    (registrations.filterMap sent?).map (·.1) = commandsIn .sent registrations := by
  unfold commandsIn
  rw [List.map_filterMap]
  refine List.filterMap_congr fun r _ => ?_
  cases r <;> rfl

theorem map_filterMap_handled? :
    (registrations.filterMap handled?).map (·.1) = commandsIn .handled registrations := by
  unfold commandsIn
  rw [List.map_filterMap]
  refine List.filterMap_congr fun r _ => ?_
  cases r <;> rfl

theorem isSome_get?_sent {command : UInt32} :
    ((CommandTable.ofEntries (registrations.filterMap sent?)).get? command).isSome ↔
      command ∈ commandsIn .sent registrations := by
  rw [CommandTable.isSome_get?_ofEntries, map_filterMap_sent?]

theorem isSome_get?_handled {command : UInt32} :
    ((CommandTable.ofEntries (registrations.filterMap handled?)).get? command).isSome ↔
      command ∈ commandsIn .handled registrations := by
  rw [CommandTable.isSome_get?_ofEntries, map_filterMap_handled?]

/-! ### What is registered again -/

theorem key_mem_iff {r : Registration} :
    r.key ∈ registrations.map key ↔ r.key.2 ∈ commandsIn r.key.1 registrations := by
  unfold commandsIn
  simp only [List.mem_map, List.mem_filterMap, Option.ite_none_right_eq_some, Option.some.injEq]
  exact exists_congr fun r' => and_congr_right fun _ => Prod.ext_iff

theorem commandsIn_concat (role : Role) (registrations : List Registration) (r : Registration) :
    commandsIn role (registrations ++ [r]) =
      commandsIn role registrations ++ if r.key.1 = role then [r.key.2] else [] := by
  unfold commandsIn
  rw [List.filterMap_append]
  by_cases hrole : r.key.1 = role
  · simp [hrole]
  · simp [hrole]

theorem isRepeat_concat_of_mem {e : Registration × Nat} (he : e ∈ registrations.zipIdx)
    (r : Registration) : isRepeat (registrations ++ [r]) e = isRepeat registrations e := by
  have hlt : e.2 < registrations.length := by simpa using List.snd_lt_add_of_mem_zipIdx he
  unfold isRepeat
  rw [List.take_append_of_le_length hlt.le]

theorem isRepeat_concat_last (registrations : List Registration) (r : Registration) :
    isRepeat (registrations ++ [r]) (r, registrations.length) ↔
      r.key.2 ∈ commandsIn r.key.1 registrations := by
  unfold isRepeat
  rw [decide_eq_true_eq, List.take_left, key_mem_iff]

theorem repeated_concat (registrations : List Registration) (r : Registration) :
    repeated (registrations ++ [r]) = repeated registrations ++
      if r.key.2 ∈ commandsIn r.key.1 registrations then [r.key] else [] := by
  have hold : registrations.zipIdx.filter (isRepeat (registrations ++ [r])) =
      registrations.zipIdx.filter (isRepeat registrations) :=
    List.filter_congr fun e he => isRepeat_concat_of_mem he r
  unfold repeated
  rw [List.zipIdx_append, List.filter_append, hold, List.map_append, List.zipIdx_singleton,
    Nat.zero_add]
  by_cases hmem : r.key.2 ∈ commandsIn r.key.1 registrations
  · rw [if_pos hmem, List.filter_cons_of_pos ((isRepeat_concat_last registrations r).mpr hmem)]
    rfl
  · rw [if_neg hmem,
      List.filter_cons_of_neg fun h => hmem ((isRepeat_concat_last registrations r).mp h)]
    rfl

theorem repeated_eq_nil_iff :
    repeated registrations = [] ↔ ∀ role, (commandsIn role registrations).Nodup := by
  induction registrations using List.reverseRecOn with
  | nil => simp [repeated, commandsIn]
  | append_singleton registrations r ih =>
    rw [repeated_concat, List.append_eq_nil_iff, ih]
    constructor
    · rintro ⟨hold, hnew⟩ role
      have hfresh : r.key.2 ∉ commandsIn r.key.1 registrations := fun hmem => by
        rw [if_pos hmem] at hnew
        cases hnew
      rw [commandsIn_concat]
      split_ifs with hrole
      · subst hrole
        refine List.nodup_append.mpr ⟨hold _, List.nodup_singleton _, fun c hc c' hc' heq => ?_⟩
        rw [heq, List.mem_singleton.mp hc'] at hc
        exact hfresh hc
      · rw [List.append_nil]
        exact hold role
    · intro h
      have hold (role : Role) : (commandsIn role registrations).Nodup := by
        have hrole := h role
        rw [commandsIn_concat] at hrole
        exact (List.nodup_append.mp hrole).1
      refine ⟨hold, if_neg fun hmem => ?_⟩
      have hrole := h r.key.1
      rw [commandsIn_concat, if_pos rfl] at hrole
      exact (List.nodup_append.mp hrole).2.2 _ hmem _ List.mem_cons_self rfl

end Registration

/-! ### Building a protocol -/

open Registration

/-- The tables of these registrations. -/
def Protocol.ofRegistrations (name : String) (registrations : List Registration) : Protocol where
  name := name
  sent := .ofEntries (registrations.filterMap sent?)
  handled := .ofEntries (registrations.filterMap handled?)

theorem ProtocolDraft.foldl_add (name : String) (registrations : List Registration) :
    registrations.foldl add { protocol := { name } } =
      { protocol := .ofRegistrations name registrations
        repeated := Registration.repeated registrations } := by
  induction registrations using List.reverseRecOn with
  | nil => rfl
  | append_singleton registrations r ih =>
    rw [List.foldl_append, ih, List.foldl_cons, List.foldl_nil, repeated_concat]
    unfold Protocol.ofRegistrations
    rw [List.filterMap_append, List.filterMap_append]
    cases r with
    | sends command types =>
      have hsent : [sends command types].filterMap sent? = [(command, types)] := rfl
      have hhandled : [sends command types].filterMap handled? = [] := rfl
      rw [hsent, hhandled, CommandTable.ofEntries_concat, List.append_nil]
      exact congrArg (mk _ <| Registration.repeated registrations ++ ·)
        (if_congr isSome_get?_sent rfl rfl)
    | handles command entry =>
      have hsent : [handles command entry].filterMap sent? = [] := rfl
      have hhandled : [handles command entry].filterMap handled? = [(command, entry)] := rfl
      rw [hsent, hhandled, CommandTable.ofEntries_concat, List.append_nil]
      exact congrArg (mk _ <| Registration.repeated registrations ++ ·)
        (if_congr isSome_get?_handled rfl rfl)

namespace Protocol

variable {name : String} {registrations registrations' : List Registration} {p : Protocol}

theorem build_of_distinct (h : ∀ role, (commandsIn role registrations).Nodup) :
    build name registrations = .ok (ofRegistrations name registrations) := by
  unfold build
  rw [ProtocolDraft.foldl_add, repeated_eq_nil_iff.mpr h]
  rfl

theorem build_of_repeated (h : repeated registrations ≠ []) :
    build name registrations = .error (.invalidArgument ("protocol '" ++ name ++ "' registers " ++
      ", ".intercalate ((repeated registrations).map roleText) ++ " more than once")) := by
  unfold build
  rw [ProtocolDraft.foldl_add]
  exact if_neg (by simpa using h)

theorem build_eq_ok_iff :
    build name registrations = .ok p ↔
      (∀ role, (commandsIn role registrations).Nodup) ∧ ofRegistrations name registrations = p := by
  by_cases h : ∀ role, (commandsIn role registrations).Nodup
  · rw [build_of_distinct h]
    exact ⟨fun heq => ⟨h, Except.ok.inj heq⟩, fun heq => congrArg _ heq.2⟩
  · rw [build_of_repeated fun hnil => h (repeated_eq_nil_iff.mp hnil)]
    exact ⟨nofun, fun heq => absurd heq.1 h⟩

/-! ### Lookups in a protocol -/

theorem get?_sent_iff (h : build name registrations = .ok p) {command : UInt32}
    {types : CommandTypes} :
    p.sent.get? command = some types ↔ .sends command types ∈ registrations := by
  obtain ⟨hdistinct, rfl⟩ := build_eq_ok_iff.mp h
  have hnodup : ((registrations.filterMap sent?).map (·.1)).Nodup := by
    rw [map_filterMap_sent?]
    exact hdistinct .sent
  exact (CommandTable.get?_ofEntries_eq_some_iff hnodup).trans mem_filterMap_sent?

theorem get?_handled_iff (h : build name registrations = .ok p) {command : UInt32}
    {entry : HandledCommand} :
    p.handled.get? command = some entry ↔ .handles command entry ∈ registrations := by
  obtain ⟨hdistinct, rfl⟩ := build_eq_ok_iff.mp h
  have hnodup : ((registrations.filterMap handled?).map (·.1)).Nodup := by
    rw [map_filterMap_handled?]
    exact hdistinct .handled
  exact (CommandTable.get?_ofEntries_eq_some_iff hnodup).trans mem_filterMap_handled?

theorem get?_sent_eq_none_iff (h : build name registrations = .ok p) {command : UInt32} :
    p.sent.get? command = none ↔ command ∉ commandsIn .sent registrations := by
  obtain ⟨-, rfl⟩ := build_eq_ok_iff.mp h
  rw [← isSome_get?_sent, Option.not_isSome_iff_eq_none]
  rfl

theorem get?_handled_eq_none_iff (h : build name registrations = .ok p) {command : UInt32} :
    p.handled.get? command = none ↔ command ∉ commandsIn .handled registrations := by
  obtain ⟨-, rfl⟩ := build_eq_ok_iff.mp h
  rw [← isSome_get?_handled, Option.not_isSome_iff_eq_none]
  rfl

theorem sentTypes_eq_ok_iff {command : UInt32} {types : CommandTypes} :
    p.sentTypes command = .ok types ↔ p.sent.get? command = some types := by
  unfold sentTypes
  cases p.sent.get? command <;> simp

theorem sentTypes_eq_unknown_iff {command : UInt32} :
    p.sentTypes command = .error (.unknownCommand command) ↔ p.sent.get? command = none := by
  unfold sentTypes
  cases p.sent.get? command <;> simp

theorem handledTypes_eq_ok_iff {command : UInt32} {types : CommandTypes} :
    p.handledTypes command = .ok types ↔
      ∃ handler, p.handled.get? command = some ⟨types, handler⟩ := by
  unfold handledTypes
  rcases p.handled.get? command with _ | ⟨types', handler⟩
  · simp
  · simp [HandledCommand.mk.injEq, eq_comm]

theorem handledTypes_eq_unknown_iff {command : UInt32} :
    p.handledTypes command = .error (.unknownCommand command) ↔
      p.handled.get? command = none := by
  unfold handledTypes
  cases p.handled.get? command <;> simp

theorem build_eq_of_perm (h : build name registrations = .ok p)
    (hperm : registrations.Perm registrations') : build name registrations' = .ok p := by
  obtain ⟨hdistinct, rfl⟩ := build_eq_ok_iff.mp h
  have hcommands (role : Role) :
      (commandsIn role registrations).Perm (commandsIn role registrations') :=
    hperm.filterMap _
  have hsame : ofRegistrations name registrations = ofRegistrations name registrations' := by
    unfold ofRegistrations
    congr 1
    · refine CommandTable.ofEntries_eq_of_perm ?_ (hperm.filterMap _)
      rw [map_filterMap_sent?]
      exact hdistinct .sent
    · refine CommandTable.ofEntries_eq_of_perm ?_ (hperm.filterMap _)
      rw [map_filterMap_handled?]
      exact hdistinct .handled
  exact build_eq_ok_iff.mpr ⟨fun role => (hcommands role).nodup_iff.mp (hdistinct role), hsame.symm⟩

/-! ### Main statement -/

/-- **A protocol holds exactly what was registered.**  It comes of the registrations exactly if no
command is registered twice in one role; otherwise the error names each registration that repeats
an earlier one of its role, in their order.  A protocol that comes of them answers every lookup with
what was registered for the command in that role (among the handled ones its types and its handler,
which tells whether it answers through a handle), and knows no other command.  Its commands ascend,
and in whatever order the registrations were made, the protocol is the same. -/
theorem build_holds_registered (name : String) (registrations : List Registration) :
    ((∃ p, build name registrations = .ok p) ↔
      ∀ role, (commandsIn role registrations).Nodup) ∧
    ((¬ ∀ role, (commandsIn role registrations).Nodup) →
      build name registrations = .error (.invalidArgument ("protocol '" ++ name ++ "' registers " ++
        ", ".intercalate ((repeated registrations).map roleText) ++ " more than once"))) ∧
    ∀ p, build name registrations = .ok p →
      p.name = name ∧
      (∀ command types,
        p.sentTypes command = .ok types ↔ .sends command types ∈ registrations) ∧
      (∀ command, p.sentTypes command = .error (.unknownCommand command) ↔
        command ∉ commandsIn .sent registrations) ∧
      (∀ command types, p.handledTypes command = .ok types ↔
        ∃ handler, .handles command ⟨types, handler⟩ ∈ registrations) ∧
      (∀ command entry,
        p.handled.get? command = some entry ↔ .handles command entry ∈ registrations) ∧
      (∀ command, p.handledTypes command = .error (.unknownCommand command) ↔
        command ∉ commandsIn .handled registrations) ∧
      p.sent.commands.Pairwise (· < ·) ∧ p.handled.commands.Pairwise (· < ·) ∧
      ∀ registrations', registrations.Perm registrations' →
        build name registrations' = .ok p := by
  refine ⟨⟨?_, fun h => ⟨_, build_of_distinct h⟩⟩, ?_, fun p h => ⟨?_, ?_, ?_, ?_, ?_, ?_, ?_⟩⟩
  · rintro ⟨p, hp⟩
    exact (build_eq_ok_iff.mp hp).1
  · exact fun h => build_of_repeated fun hnil => h (repeated_eq_nil_iff.mp hnil)
  · obtain ⟨-, rfl⟩ := build_eq_ok_iff.mp h
    rfl
  · exact fun command types => sentTypes_eq_ok_iff.trans (get?_sent_iff h)
  · exact fun command => sentTypes_eq_unknown_iff.trans (get?_sent_eq_none_iff h)
  · intro command types
    exact handledTypes_eq_ok_iff.trans (exists_congr fun handler => get?_handled_iff h)
  · exact fun command entry => get?_handled_iff h
  · exact fun command => handledTypes_eq_unknown_iff.trans (get?_handled_eq_none_iff h)
  · obtain ⟨-, rfl⟩ := build_eq_ok_iff.mp h
    exact ⟨(CommandTable.isAscending_ofEntries _).pairwise_commands,
      (CommandTable.isAscending_ofEntries _).pairwise_commands,
      fun registrations' hperm => build_eq_of_perm h hperm⟩

/-- A command in both roles and one that is answered through a handle, registered in descending
order and in another; and one that is handled twice, at once and through a handle, between two
registrations of another. -/
theorem build_holds_registered_deferred :
    let number : PayloadType := .ofMessage UInt32 0 "u32"
    let types : CommandTypes := ⟨number, number⟩
    let atOnce : HandledCommand := ⟨types, .inline fun c request => .done (Handler.echo c request)⟩
    let later : HandledCommand := ⟨types, .deferred fun _ _ _ => .done (.last .keep)⟩
    let registrations : List Registration := [.handles 7 later, .sends 3 types, .handles 3 atOnce]
    (∃ p, build "counter" registrations = .ok p ∧
      p.handledTypes 7 = .ok types ∧ p.handled.get? 7 = some later ∧
      p.sentTypes 7 = .error (.unknownCommand 7) ∧
      build "counter" [.sends 3 types, .handles 3 atOnce, .handles 7 later] = .ok p) ∧
    build "counter" [.sends 3 types, .handles 7 atOnce, .handles 7 later, .sends 3 types] =
      .error (.invalidArgument
        "protocol 'counter' registers handled command 7, sent command 3 more than once") := by
  intro number types atOnce later registrations
  have hdistinct : ∀ role, (commandsIn role registrations).Nodup := by
    intro role
    cases role <;> decide
  constructor
  · obtain ⟨hiff, -, hlookups⟩ := build_holds_registered "counter" registrations
    obtain ⟨p, hp⟩ := hiff.mpr hdistinct
    obtain ⟨-, -, hunknown, htypes, hentry, -, -, -, hperm⟩ := hlookups p hp
    refine ⟨p, hp, (htypes 7 types).mpr ⟨_, List.mem_cons_self⟩,
      (hentry 7 later).mpr List.mem_cons_self, (hunknown 7).mpr (by decide), hperm _ ?_⟩
    exact (List.perm_append_singleton (Registration.handles 7 later) _).symm
  · have hrepeated : ¬ ∀ role, (commandsIn role
        [.sends 3 types, .handles 7 atOnce, .handles 7 later, .sends 3 types]).Nodup :=
      fun h => absurd (h .sent) (by decide)
    obtain ⟨-, herror, -⟩ := build_holds_registered "counter"
      [.sends 3 types, .handles 7 atOnce, .handles 7 later, .sends 3 types]
    refine (herror hrepeated).trans (congrArg (Except.error ∘ RpcError.invalidArgument) ?_)
    decide +kernel

end Protocol

end CallWire
