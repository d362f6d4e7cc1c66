import CallWire.Message.Dictionary
import CallWire.Proofs.Codec.RoundTrip
import Mathlib.Data.List.Dedup
import Mathlib.Data.List.Sort

/-!
# CallWire.Proofs.Message.Dictionary — each dictionary is written in one way

A dictionary may be sent as pairs in any order, with keys repeated.  Of the pairs for a key the last
one counts, and what is written for the dictionary has each key once, in order.  So to read and write
again changes nothing more, and pairs that agree on the last value of every key come out the same.
-/

namespace CallWire

theorem Bytes.ofText_injective : Function.Injective ofText := fun s t h =>
  Option.some.inj ((toText?_ofText s).symm.trans ((congrArg toText? h).trans (toText?_ofText t)))

namespace Dictionary

variable {entries pairs pairs' : List (String × UInt32)} {key k : String} {value v : UInt32}
  {d d' : Dictionary}

/-! ### What a key is bound to -/

theorem lookup_cons (k : String) (v : UInt32) (entries : List (String × UInt32)) (key : String) :
    ((k, v) :: entries).lookup key = if k = key then some v else entries.lookup key := by
  rw [List.lookup_cons]
  split_ifs with h
  · rw [h, beq_self_eq_true]
  · rw [beq_eq_false_iff_ne.mpr (Ne.symm h)]

theorem lookup_insertEntry :
    (insertEntry key value entries).lookup k =
      if key = k then some value else entries.lookup k := by
  induction entries with
  | nil => exact lookup_cons key value [] k
  | cons e entries ih =>
    obtain ⟨first, v⟩ := e
    unfold insertEntry
    by_cases hfirst : first = key
    · rw [if_pos hfirst, lookup_cons, lookup_cons, hfirst]
      split_ifs
      · rfl
      · rfl
    · rw [if_neg hfirst]
      by_cases hlt : Bytes.ofText key < Bytes.ofText first
      · rw [if_pos hlt, lookup_cons]
      · rw [if_neg hlt, lookup_cons, lookup_cons, ih]
        split_ifs with hk hkey
        · exact absurd (hk.trans hkey.symm) hfirst
        · rfl
        · rfl
        · rfl

/-- The value of the last pair with this key. -/
def lastValue? (pairs : List (String × UInt32)) (key : String) : Option UInt32 :=
  pairs.reverse.lookup key

theorem lastValue?_concat (pairs : List (String × UInt32)) (e : String × UInt32) (key : String) :
    lastValue? (pairs ++ [e]) key = if e.1 = key then some e.2 else lastValue? pairs key := by
  unfold lastValue?
  rw [List.reverse_append]
  exact lookup_cons e.1 e.2 pairs.reverse key

theorem ofList_concat (pairs : List (String × UInt32)) (e : String × UInt32) :
    ofList (pairs ++ [e]) = (ofList pairs).insert e.1 e.2 := by
  unfold ofList
  rw [List.foldl_append]
  rfl

theorem get?_ofList (pairs : List (String × UInt32)) (key : String) :
    (ofList pairs).get? key = lastValue? pairs key := by
  induction pairs using List.reverseRecOn with
  | nil => rfl
  | append_singleton pairs e ih =>
    rw [ofList_concat, lastValue?_concat, ← ih]
    exact lookup_insertEntry

theorem isSome_lookup_iff : (entries.lookup key).isSome ↔ key ∈ entries.map Prod.fst := by
  simp only [List.lookup_isSome_iff, List.mem_map, beq_iff_eq, @eq_comm _ key]

/-! ### The order of the entries -/

/-- The bytes of the keys ascend. -/
def IsAscending (entries : List (String × UInt32)) : Prop :=
  entries.Pairwise fun e e' => Bytes.ofText e.1 < Bytes.ofText e'.1

theorem mem_of_mem_insertEntry {e : String × UInt32} (h : e ∈ insertEntry key value entries) :
    e = (key, value) ∨ e ∈ entries := by
  induction entries with
  | nil => exact .inl (List.mem_singleton.mp h)
  | cons first entries ih =>
    obtain ⟨k, v⟩ := first
    unfold insertEntry at h
    split_ifs at h
    · exact (List.mem_cons.mp h).imp_right (List.mem_cons_of_mem _)
    · exact List.mem_cons.mp h
    · rcases List.mem_cons.mp h with rfl | h
      · exact .inr List.mem_cons_self
      · exact (ih h).imp_right (List.mem_cons_of_mem _)

theorem IsAscending.insertEntry (h : IsAscending entries) (key : String) (value : UInt32) :
    IsAscending (insertEntry key value entries) := by
  induction entries with
  | nil => exact List.pairwise_singleton _ _
  | cons e entries ih =>
    obtain ⟨k, v⟩ := e
    obtain ⟨hfirst, hrest⟩ := List.pairwise_cons.mp h
    unfold Dictionary.insertEntry
    split_ifs with hk hlt
    · subst hk
      exact List.pairwise_cons.mpr ⟨hfirst, hrest⟩
    · refine List.pairwise_cons.mpr ⟨fun e he => ?_, h⟩
      rcases List.mem_cons.mp he with rfl | he
      · exact hlt
      · exact List.lt_trans hlt (hfirst e he)
    · refine List.pairwise_cons.mpr ⟨fun e he => ?_, ih hrest⟩
      rcases mem_of_mem_insertEntry he with rfl | he
      · have hne : Bytes.ofText key ≠ Bytes.ofText k :=
          fun heq => hk (Bytes.ofText_injective heq).symm
        exact Std.lt_of_le_of_ne (List.not_lt.mp hlt) hne.symm
      · exact hfirst e he

theorem isAscending_ofList (pairs : List (String × UInt32)) :
    IsAscending (ofList pairs).entries := by
  induction pairs using List.reverseRecOn with
  | nil => exact List.Pairwise.nil
  | append_singleton pairs e ih =>
    rw [ofList_concat]
    exact ih.insertEntry e.1 e.2

theorem IsAscending.nodup_keys (h : IsAscending entries) : (entries.map Prod.fst).Nodup := by
  refine List.pairwise_map.mpr (h.imp fun {e e'} hlt heq => ?_)
  rw [heq] at hlt
  exact List.lt_irrefl _ hlt

theorem IsAscending.lookup_eq_some_iff (h : IsAscending entries) :
    entries.lookup key = some value ↔ (key, value) ∈ entries := by
  constructor
  · intro hlookup
    obtain ⟨before, after, rfl, -⟩ := List.lookup_eq_some_iff.mp hlookup
    exact List.mem_append_right before List.mem_cons_self
  · intro hmem
    obtain ⟨before, after, rfl⟩ := List.append_of_mem hmem
    refine List.lookup_eq_some_iff.mpr ⟨before, after, rfl, fun e he => ?_⟩
    -- What stands before an entry has a lesser key.
    have hlt : Bytes.ofText e.1 < Bytes.ofText key :=
      (List.pairwise_append.mp h).2.2 e he _ List.mem_cons_self
    refine bne_iff_ne.mpr fun heq => ?_
    rw [heq] at hlt
    exact List.lt_irrefl _ hlt

theorem IsAscending.ext {entries' : List (String × UInt32)} (h : IsAscending entries)
    (h' : IsAscending entries') (hlookup : ∀ key, entries.lookup key = entries'.lookup key) :
    entries = entries' := by
  have : Std.Irrefl fun e e' : String × UInt32 => Bytes.ofText e.1 < Bytes.ofText e'.1 :=
    ⟨fun e => List.lt_irrefl (Bytes.ofText e.1)⟩
  have : Std.Antisymm fun e e' : String × UInt32 => Bytes.ofText e.1 < Bytes.ofText e'.1 :=
    ⟨fun e e' hlt hgt => absurd hgt (List.lt_asymm hlt)⟩
  refine List.Pairwise.eq_of_mem_iff h h' fun e => ?_
  rw [← h.lookup_eq_some_iff, ← h'.lookup_eq_some_iff, hlookup]

theorem ofList_eq_ofList_iff : ofList pairs = ofList pairs' ↔
    ∀ key, lastValue? pairs key = lastValue? pairs' key := by
  constructor
  · intro h key
    rw [← get?_ofList, ← get?_ofList, h]
  · intro h
    have hentries : (ofList pairs).entries = (ofList pairs').entries := by
      refine (isAscending_ofList pairs).ext (isAscending_ofList pairs') fun key => ?_
      exact (get?_ofList pairs key).trans ((h key).trans (get?_ofList pairs' key).symm)
    exact congrArg Dictionary.mk hentries

theorem insertEntry_last (h : ∀ e ∈ entries, Bytes.ofText e.1 < Bytes.ofText key) :
    insertEntry key value entries = entries ++ [(key, value)] := by
  induction entries with
  | nil => rfl
  | cons e entries ih =>
    obtain ⟨k, v⟩ := e
    have hlt : Bytes.ofText k < Bytes.ofText key := h (k, v) List.mem_cons_self
    have hne : k ≠ key := fun heq => List.lt_irrefl _ (heq ▸ hlt)
    unfold insertEntry
    rw [if_neg hne, if_neg (List.lt_asymm hlt), ih fun e he => h e (List.mem_cons_of_mem _ he)]
    rfl

theorem IsAscending.entries_ofList (h : IsAscending entries) :
    (ofList entries).entries = entries := by
  induction entries using List.reverseRecOn with
  | nil => rfl
  | append_singleton entries e ih =>
    obtain ⟨hbefore, -, hlast⟩ := List.pairwise_append.mp h
    rw [ofList_concat]
    show Dictionary.insertEntry e.1 e.2 (ofList entries).entries = entries ++ [e]
    rw [ih hbefore]
    exact insertEntry_last fun e' he' => hlast e' he' e (List.mem_singleton_self e)

theorem isSome_lastValue?_iff : (lastValue? pairs key).isSome ↔ key ∈ pairs.map Prod.fst := by
  unfold lastValue?
  rw [isSome_lookup_iff, List.map_reverse, List.mem_reverse]

theorem mem_keys_ofList_iff :
    key ∈ (ofList pairs).entries.map Prod.fst ↔ key ∈ pairs.map Prod.fst := by
  rw [← isSome_lookup_iff, ← isSome_lastValue?_iff, ← get?_ofList]
  rfl

theorem length_entries_ofList (pairs : List (String × UInt32)) :
    (ofList pairs).entries.length = (pairs.map Prod.fst).dedup.length := by
  have hkeys : ((ofList pairs).entries.map Prod.fst).Perm (pairs.map Prod.fst).dedup := by
    refine (List.perm_ext_iff_of_nodup (isAscending_ofList pairs).nodup_keys
      (List.nodup_dedup _)).mpr fun key => ?_
    rw [List.mem_dedup, mem_keys_ofList_iff]
  rw [← hkeys.length_eq, List.length_map]

/-! ### The bytes of a dictionary -/

def pairBytes (e : String × UInt32) : Bytes :=
  Schema.countedBytes (Bytes.ofText e.1) ++ Bytes.ofNat 4 e.2.toNat

/-- Pairs as they are written. -/
def pairsBytes (pairs : List (String × UInt32)) : Bytes :=
  Bytes.ofNat 4 pairs.length ++ pairs.flatMap pairBytes

/-- The number of pairs and the lengths of their keys fit a word. -/
def CanTravel (pairs : List (String × UInt32)) : Prop :=
  pairs.length < UInt32.size ∧ ∀ e ∈ pairs, (Bytes.ofText e.1).length < UInt32.size

theorem counted_eq_ok_iff {text bs : Bytes} :
    Written.counted text = .ok bs ↔ text.length < UInt32.size ∧ Schema.countedBytes text = bs := by
  unfold Written.counted Schema.countedBytes
  simp only [Written.andThen_eq_ok, Written.length_eq_ok, Written.ok_inj]
  constructor
  · rintro ⟨_, _, ⟨hlength, rfl⟩, rfl, rfl⟩
    exact ⟨hlength, rfl⟩
  · rintro ⟨hlength, rfl⟩
    exact ⟨_, _, ⟨hlength, rfl⟩, rfl, rfl⟩

theorem write_key_eq_ok_iff {n : Nat} {u : Value} {bs : Bytes} :
    Schema.string.write [] (n + 1) u = .ok bs ↔
      ∃ s, u = Message.toValue s ∧ (Bytes.ofText s).length < UInt32.size ∧
        Schema.countedBytes (Bytes.ofText s) = bs := by
  constructor
  · intro h
    cases u with
    | string s => exact ⟨s, rfl, counted_eq_ok_iff.mp h⟩
    | _ => exact absurd h (Written.misfit_ne_ok bs)
  · rintro ⟨s, rfl, h⟩
    exact counted_eq_ok_iff.mpr h

theorem toBytes_u32 (x : UInt32) : IntKind.u32.toBytes (x.toNat : Int) = Bytes.ofNat 4 x.toNat := by
  have hx : x.toNat < UInt32.size := x.toNat_lt
  have hmod : (x.toNat : Int) % (UInt32.size : Nat) = x.toNat :=
    Int.emod_eq_of_lt (Int.natCast_nonneg _) (Int.ofNat_lt.mpr hx)
  show Bytes.ofNat 4 ((x.toNat : Int) % (UInt32.size : Nat)).toNat = _
  rw [hmod, Int.toNat_natCast]

theorem write_number_eq_ok_iff {n : Nat} {u : Value} {bs : Bytes} :
    (Schema.int .u32).write [] (n + 1) u = .ok bs ↔
      ∃ x : UInt32, u = Message.toValue x ∧ Bytes.ofNat 4 x.toNat = bs := by
  have hholds (k : Int) : IntKind.u32.Holds k ↔ 0 ≤ k ∧ k < UInt32.size := by
    have hgreatest : IntKind.u32.greatest = UInt32.size - 1 := rfl
    show 0 ≤ k ∧ k ≤ IntKind.u32.greatest ↔ _
    rw [hgreatest]
    omega
  constructor
  · intro h
    cases u with
    | int k =>
      simp only [Schema.write] at h
      split_ifs at h with hk
      · obtain ⟨hnonneg, hlt⟩ := (hholds k).mp hk
        have hx : (UInt32.ofNat k.toNat).toNat = k := by
          rw [UInt32.toNat_ofNat_of_lt' (by omega)]
          omega
        refine ⟨.ofNat k.toNat, ?_, ?_⟩
        · show Value.int k = .int (UInt32.ofNat k.toNat).toNat
          rw [hx]
        · rw [← toBytes_u32, hx]
          exact Written.ok_inj.mp h
      · exact absurd h (Written.misfit_ne_ok bs)
    | _ => exact absurd h (Written.misfit_ne_ok bs)
  · rintro ⟨x, rfl, rfl⟩
    have hx : IntKind.u32.Holds x.toNat :=
      (hholds _).mpr ⟨Int.natCast_nonneg _, Int.ofNat_lt.mpr x.toNat_lt⟩
    show (if IntKind.u32.Holds x.toNat then _ else _) = _
    rw [if_pos hx, toBytes_u32]

theorem write_pair_eq_ok_iff {n : Nat} {u : Value} {bs : Bytes} :
    (Schema.entry .string (.int .u32)).write [] (n + 2) u = .ok bs ↔
      ∃ e : String × UInt32, u = Message.toValue e ∧ (Bytes.ofText e.1).length < UInt32.size ∧
        pairBytes e = bs := by
  have hwrite (a b : Value) : (Schema.entry .string (.int .u32)).write [] (n + 2) (.list [a, b]) =
      (Schema.string.write [] (n + 1) a).andThen
        (((Schema.int .u32).write [] (n + 1) b).andThen (.ok [])) := rfl
  constructor
  · intro h
    match u with
    | .list [a, b] =>
      rw [hwrite, Written.andThen_ok_nil, Written.andThen_eq_ok] at h
      obtain ⟨_, _, hkey, hnumber, rfl⟩ := h
      obtain ⟨key, rfl, hlength, rfl⟩ := write_key_eq_ok_iff.mp hkey
      obtain ⟨value, rfl, rfl⟩ := write_number_eq_ok_iff.mp hnumber
      exact ⟨(key, value), rfl, hlength, rfl⟩
    | .list [] | .list [_] | .list (_ :: _ :: _ :: _) | .bool _ | .int _ | .float32 _ | .float64 _
    | .char _ | .string _ | .bytes _ | .unit | .absent | .present _ | .variant _ _ =>
      exact absurd h (Written.misfit_ne_ok bs)
  · rintro ⟨e, rfl, hlength, rfl⟩
    show (Schema.entry .string (.int .u32)).write [] (n + 2) (.list [_, _]) = _
    rw [hwrite, Written.andThen_ok_nil, Written.andThen_eq_ok]
    exact ⟨_, _, write_key_eq_ok_iff.mpr ⟨e.1, rfl, hlength, rfl⟩,
      write_number_eq_ok_iff.mpr ⟨e.2, rfl, rfl⟩, rfl⟩

theorem concat_pairs_eq_ok_iff {n : Nat} {us : List Value} {bs : Bytes} :
    Written.concat (us.map ((Schema.entry .string (.int .u32)).write [] (n + 2))) = .ok bs ↔
      ∃ pairs : List (String × UInt32), us = pairs.map Message.toValue ∧
        (∀ e ∈ pairs, (Bytes.ofText e.1).length < UInt32.size) ∧ pairs.flatMap pairBytes = bs := by
  induction us generalizing bs with
  | nil =>
    rw [List.map_nil, Written.concat_nil, Written.ok_inj]
    constructor
    · rintro rfl
      exact ⟨[], rfl, List.forall_mem_nil _, rfl⟩
    · rintro ⟨pairs, hpairs, -, rfl⟩
      rw [List.map_eq_nil_iff.mp hpairs.symm]
      rfl
  | cons u us ih =>
    rw [List.map_cons, Written.concat_cons, Written.andThen_eq_ok]
    constructor
    · rintro ⟨_, _, hfirst, hrest, rfl⟩
      obtain ⟨e, rfl, hkey, rfl⟩ := write_pair_eq_ok_iff.mp hfirst
      obtain ⟨pairs, rfl, hkeys, rfl⟩ := ih.mp hrest
      exact ⟨e :: pairs, rfl, List.forall_mem_cons.mpr ⟨hkey, hkeys⟩, rfl⟩
    · rintro ⟨pairs, hpairs, hkeys, rfl⟩
      cases pairs with
      | nil => cases hpairs
      | cons e pairs =>
        obtain ⟨rfl, rfl⟩ := List.cons.inj hpairs
        obtain ⟨hkey, hkeys⟩ := List.forall_mem_cons.mp hkeys
        exact ⟨_, _, write_pair_eq_ok_iff.mpr ⟨e, rfl, hkey, rfl⟩,
          ih.mpr ⟨pairs, rfl, hkeys, rfl⟩, rfl⟩

theorem write_eq_ok_iff {n : Nat} {u : Value} {bs : Bytes} :
    (Message.schema Dictionary).write [] (n + 3) u = .ok bs ↔
      ∃ pairs : List (String × UInt32), u = Message.toValue pairs ∧ CanTravel pairs ∧
        pairsBytes pairs = bs := by
  constructor
  · intro h
    cases u with
    | list us =>
      obtain ⟨_, _, hcount, hpairs, rfl⟩ := Written.andThen_eq_ok.mp h
      obtain ⟨hlength, rfl⟩ := Written.length_eq_ok.mp hcount
      obtain ⟨pairs, rfl, hkeys, rfl⟩ := concat_pairs_eq_ok_iff.mp hpairs
      rw [List.length_map] at hlength
      exact ⟨pairs, rfl, ⟨hlength, hkeys⟩, by rw [pairsBytes, List.length_map]⟩
    | _ => exact absurd h (Written.misfit_ne_ok bs)
  · rintro ⟨pairs, rfl, ⟨hlength, hkeys⟩, rfl⟩
    refine Written.andThen_eq_ok.mpr ⟨_, _, Written.length_eq_ok.mpr ⟨?_, rfl⟩,
      concat_pairs_eq_ok_iff.mpr ⟨pairs, rfl, hkeys, rfl⟩, ?_⟩
    · rw [List.length_map]
      exact hlength
    · rw [List.length_map]
      rfl

theorem encode_eq_ok_iff {u : Value} {bs : Bytes} :
    (Message.schema Dictionary).encode [] u = .ok bs ↔
      ∃ pairs : List (String × UInt32), u = Message.toValue pairs ∧ CanTravel pairs ∧
        pairsBytes pairs = bs := by
  rw [Schema.encode_eq_ok_iff]
  constructor
  · intro h
    obtain ⟨n, hn⟩ := Schema.written_eq_ok_iff.mp h
    have hfits : (Message.schema Dictionary).fitsWithin [] n u := Schema.fitsWithin_of_write hn
    have hmore : (Message.schema Dictionary).fitsWithin [] (n + 3) u :=
      (Schema.descent_fits []).mono (Nat.le_add_right n 3) hfits
    rw [Schema.write_eq_write hfits hmore] at hn
    exact write_eq_ok_iff.mp hn
  · intro h
    exact Schema.written_eq_ok_iff.mpr ⟨3, write_eq_ok_iff.mpr h⟩

theorem CanTravel.entries_ofList (h : CanTravel pairs) : CanTravel (ofList pairs).entries := by
  refine ⟨?_, fun e he => ?_⟩
  · have hle : (pairs.map Prod.fst).dedup.length ≤ pairs.length :=
      (List.dedup_sublist _).length_le.trans_eq (List.length_map _)
    rw [length_entries_ofList]
    exact Nat.lt_of_le_of_lt hle h.1
  · obtain ⟨e', he', hkey⟩ :=
      List.mem_map.mp (mem_keys_ofList_iff.mp (List.mem_map_of_mem (f := Prod.fst) he))
    rw [← hkey]
    exact h.2 e' he'

theorem ofValue?_toValue (pairs : List (String × UInt32)) :
    Message.ofValue? (Message.toValue pairs) = some pairs := by
  show (pairs.map Message.toValue).mapM Message.ofValue? = some pairs
  induction pairs with
  | nil => rfl
  | cons e pairs ih =>
    have hfirst : Message.ofValue? (Message.toValue e) = some e := by
      show some (e.1, UInt32.ofNat (e.2.toNat : Int).toNat) = some e
      rw [Int.toNat_natCast, UInt32.ofNat_toNat]
    rw [List.map_cons, List.mapM_cons, hfirst, ih]
    rfl

theorem isFaithful_schema : (Message.schema Dictionary).IsFaithful [] :=
  Schema.isFaithful_of_isPlain rfl (List.forall_mem_nil _)

theorem decode_value_pairsBytes (h : CanTravel pairs) :
    (Message.schema Dictionary).decode [] (pairsBytes pairs) = .ok (Message.toValue pairs) :=
  (Schema.decode_eq_ok_iff isFaithful_schema).mpr (encode_eq_ok_iff.mpr ⟨pairs, rfl, h, rfl⟩)

theorem pairsBytes_inj (h : CanTravel pairs) (h' : CanTravel pairs') :
    pairsBytes pairs = pairsBytes pairs' ↔ pairs = pairs' := by
  refine ⟨fun heq => ?_, congrArg pairsBytes⟩
  have hvalue := decode_value_pairsBytes h
  rw [heq, decode_value_pairsBytes h'] at hvalue
  have hsame : (Message.ofValue? (Message.toValue pairs') : Option (List (String × UInt32))) =
      Message.ofValue? (Message.toValue pairs) := congrArg _ (Except.ok.inj hvalue)
  rw [ofValue?_toValue, ofValue?_toValue] at hsame
  exact (Option.some.inj hsame).symm

theorem decode_pairsBytes (h : CanTravel pairs) :
    Message.decode (pairsBytes pairs) = .ok (ofList pairs) := by
  have hmade : Message.ofValue? (Message.toValue pairs) = some (ofList pairs) := by
    show (Message.ofValue? (Message.toValue pairs)).map ofList = _
    rw [ofValue?_toValue, Option.map_some]
  unfold Message.decode
  rw [decode_value_pairsBytes h]
  simp only [bind, Except.bind, hmade, pure, Except.pure]

theorem exists_pairs_of_decode {b : Bytes} (h : Message.decode b = .ok d) :
    ∃ pairs, CanTravel pairs ∧ pairsBytes pairs = b ∧ ofList pairs = d := by
  cases hvalue : (Message.schema Dictionary).decode [] b with
  | error e =>
    unfold Message.decode at h
    rw [hvalue] at h
    cases h
  | ok u =>
    obtain ⟨pairs, -, htravel, rfl⟩ :=
      encode_eq_ok_iff.mp ((Schema.decode_eq_ok_iff isFaithful_schema).mp hvalue)
    rw [decode_pairsBytes htravel] at h
    exact ⟨pairs, htravel, rfl, Except.ok.inj h⟩

theorem encode_ofList (h : CanTravel pairs) :
    Message.encode (ofList pairs) = .ok (pairsBytes (ofList pairs).entries) :=
  encode_eq_ok_iff.mpr ⟨_, rfl, h.entries_ofList, rfl⟩

/-! ### Main statement -/

/-- **To read and write a dictionary again changes nothing more.**  Bytes that are read as a
dictionary are those of certain pairs, in a certain order and with keys repeated or not, and no
others.  A key is bound to the value of the last pair with it, and to none without.  The dictionary
is written as the number of the different keys and then each of them with its value, their bytes in
strictly ascending order.  This is read as the same dictionary and written as the same bytes; and so
are all pairs that agree with the first ones on the last value of every key. -/
theorem decode_normalises (b : Bytes) (m : Dictionary) (h : Message.decode b = .ok m) :
    ∃ pairs, (CanTravel pairs ∧ pairsBytes pairs = b) ∧
      (∀ others, CanTravel others → pairsBytes others = b → others = pairs) ∧
      (∀ key, m.get? key = lastValue? pairs key) ∧
      IsAscending m.entries ∧
      ∃ bytes, Message.encode m = .ok bytes ∧
        bytes = Bytes.ofNat 4 (pairs.map Prod.fst).dedup.length ++ m.entries.flatMap pairBytes ∧
        Message.decode bytes = .ok m ∧
        (∀ again : Dictionary, Message.decode bytes = .ok again →
          Message.encode again = .ok bytes) ∧
        ∀ others, CanTravel others → (∀ key, lastValue? others key = lastValue? pairs key) →
          ∃ m' : Dictionary, Message.decode (pairsBytes others) = .ok m' ∧
            Message.encode m' = .ok bytes := by
  obtain ⟨pairs, htravel, rfl, rfl⟩ := exists_pairs_of_decode h
  have hwritten := encode_ofList htravel
  have hagain : Message.decode (pairsBytes (ofList pairs).entries) = .ok (ofList pairs) := by
    have hsame : ofList (ofList pairs).entries = ofList pairs :=
      congrArg mk (isAscending_ofList pairs).entries_ofList
    rw [decode_pairsBytes htravel.entries_ofList, hsame]
  refine ⟨pairs, ⟨htravel, rfl⟩, fun others h heq => (pairsBytes_inj h htravel).mp heq,
    get?_ofList pairs, isAscending_ofList pairs, _, hwritten, ?_, hagain, ?_, ?_⟩
  · rw [pairsBytes, length_entries_ofList]
  · intro again hread
    obtain rfl := Except.ok.inj (hagain.symm.trans hread)
    exact hwritten
  · intro others hothers hlast
    refine ⟨ofList others, decode_pairsBytes hothers, ?_⟩
    rw [ofList_eq_ofList_iff.mpr hlast]
    exact hwritten

/-- Three pairs: the last replaces the first, and the keys come the wrong way round. -/
theorem decode_normalises_repeated :
    let b : Bytes := [0, 0, 0, 3, 0, 0, 0, 1, 98, 0, 0, 0, 0, 0, 0, 1, 0, 0, 0, 1, 97, 0, 0, 0,
      0, 0, 0, 2, 0, 0, 0, 1, 98, 0, 0, 0, 0, 0, 0, 3]
    let bytes : Bytes := [0, 0, 0, 2, 0, 0, 0, 1, 97, 0, 0, 0, 0, 0, 0, 2, 0, 0, 0, 1, 98, 0, 0, 0,
      0, 0, 0, 3]
    let m : Dictionary := ⟨[("a", 2), ("b", 3)]⟩
    Message.decode b = .ok m ∧ m.get? "b" = lastValue? [("b", 1), ("a", 2), ("b", 3)] "b" ∧
      Message.encode m = .ok bytes ∧ Message.decode bytes = .ok m := by
  intro b bytes m
  have htravel : CanTravel [("b", 1), ("a", 2), ("b", 3)] := by
    unfold CanTravel
    decide +kernel
  have hb : pairsBytes [("b", 1), ("a", 2), ("b", 3)] = b := by decide +kernel
  have hm : ofList [("b", 1), ("a", 2), ("b", 3)] = m := by decide +kernel
  have hread : Message.decode b = .ok m := by
    rw [← hb, ← hm]
    exact decode_pairsBytes htravel
  obtain ⟨pairs, -, honly, hget, -, bytes', hwrite, hbytes', hagain, -⟩ :=
    decode_normalises b m hread
  obtain rfl := honly _ htravel hb
  have hbytes : bytes' = bytes := by
    rw [hbytes']
    decide +kernel
  rw [hbytes] at hwrite hagain
  exact ⟨hread, hget "b", hwrite, hagain⟩

end Dictionary

end CallWire
