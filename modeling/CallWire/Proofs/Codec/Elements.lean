import CallWire.Proofs.Codec.RoundTrip
import CallWire.Proofs.Codec.Visits

/-!
# CallWire.Proofs.Codec.Elements — a value has no more elements than its bytes have words

A count says how many elements follow, and it may say anything.  Where every element takes bytes it
takes a word, so that the elements of all sequences in a value, those inside one another included,
are no more than the words of the input; and a count of more than are left cannot be met.
-/

namespace CallWire

/-- `rest` is `input`, with `k = 0`, or `input` without at least `k + 1` words. -/
def Pays (input rest : Bytes) (k : Nat) : Prop :=
  rest = input ∧ k = 0 ∨ rest.length + 4 * k + 4 ≤ input.length

namespace Pays

variable {input mid rest : Bytes} {k l : Nat}

theorem of_isBehind (h : rest.IsBehind input) : Pays input rest 0 := by
  rcases h.eq_or_le with heq | hle
  · exact .inl ⟨heq, rfl⟩
  · exact .inr (by omega)

theorem add (h : Pays input mid k) (h' : Pays mid rest l) : Pays input rest (k + l) := by
  rcases h with ⟨rfl, rfl⟩ | h
  · rw [Nat.zero_add]
    exact h'
  · rcases h' with ⟨rfl, rfl⟩ | h'
    · exact .inr h
    · exact .inr (by omega)

theorem le (h : Pays input rest k) : rest.length + 4 * k ≤ input.length := by
  rcases h with ⟨rfl, rfl⟩ | h
  · omega
  · omega

theorem behind_word {n : Nat} (hword : Reader.word 4 input = .value n mid) (h : Pays mid rest k) :
    Pays input rest k := by
  have hlength := Schema.length_of_word hword
  have hle := h.le
  right
  omega

end Pays

namespace Schema

open Reader

variable {defs : Defs} {schema element inner : Schema} {input mid rest : Bytes} {v : Value}
  {d n : Nat}

/-! ### The elements of a value -/

/-- The number of elements of a sequence or a map. -/
def rowLength : Schema → Value → Nat
  | seq _, .list vs | unsized _ _, .list vs => vs.length
  | _, _ => 0

/-- The number of elements of all sequences and maps in a value, with fewer than `d` calls around
them. -/
def elements (defs : Defs) : (d : Nat) → Schema → Value → Nat
  | 0, _, _ => 0
  | d + 1, schema, v =>
    schema.rowLength v + (((schema.parts? defs v).getD []).map fun p => elements defs d p.1 p.2).sum

theorem elements_of_parts {inside : List (Schema × Value)}
    (h : schema.parts? defs v = some inside) :
    schema.elements defs (d + 1) v =
      schema.rowLength v + (inside.map fun p => p.1.elements defs d p.2).sum := by
  rw [elements, h, Option.getD_some]

theorem elements_of_one {u : Value} (hrow : schema.rowLength u = 0)
    (hparts : schema.parts? defs u = some [(inner, v)]) :
    schema.elements defs (d + 1) u = inner.elements defs d v := by
  rw [elements_of_parts hparts, hrow, Nat.zero_add, List.map_singleton, List.sum_singleton]

theorem elements_row {vs : List Value} (h : schema.element? = some element) :
    schema.elements defs (d + 1) (.list vs) =
      vs.length + (vs.map fun u => element.elements defs d u).sum := by
  cases schema with
  | seq | unsized =>
    obtain rfl := Option.some.inj h
    rw [elements_of_parts rfl, List.map_map]
    rfl
  | _ => cases h

theorem elements_record {fields : List Schema} {vs : List Value} (h : fields.length = vs.length) :
    (record fields).elements defs (d + 1) (.list vs) =
      ((fields.zip vs).map fun p => p.1.elements defs d p.2).sum := by
  have hparts : (record fields).parts? defs (.list vs) = some (fields.zip vs) := by
    simp only [parts?, if_pos h]
  rw [elements_of_parts hparts]
  exact Nat.zero_add _

theorem elements_leaf (h : ∀ inner, ¬ Enters defs schema inner) :
    schema.elements defs (d + 1) v = 0 := by
  have hrow : schema.rowLength v = 0 := by
    unfold rowLength
    split
    · exact absurd .seq (h _)
    · exact absurd .unsized (h _)
    · rfl
  rw [elements, hrow]
  cases hparts : schema.parts? defs v with
  | none => rfl
  | some inside =>
    have hnone : inside = [] :=
      List.eq_nil_iff_forall_not_mem.mpr fun p hp => h p.1 (mem_parts hparts hp).1
    rw [hnone]
    rfl

def TakesBytes (defs : Defs) (schema : Schema) : Prop :=
  ∀ input v, schema.reading defs input ≠ .value v input

/-- Every element of a sequence or map under the schema takes bytes. -/
def RowsTakeBytes (defs : Defs) (schema : Schema) : Prop :=
  ∀ node element, Relation.ReflTransGen (Enters defs) schema node → node.element? = some element →
    element.TakesBytes defs

theorem RowsTakeBytes.enter (h : schema.RowsTakeBytes defs) (hi : Enters defs schema inner) :
    inner.RowsTakeBytes defs :=
  fun node element hnode => h node element (.head hi hnode)

theorem RowsTakeBytes.visit {p q : Schema × Bytes} (h : p.1.RowsTakeBytes defs)
    (hq : Relation.ReflTransGen (Visits defs) p q) : q.1.RowsTakeBytes defs := by
  induction hq with
  | refl => exact h
  | tail _ hlast ih => exact ih.enter hlast.enters

/-! ### Rows -/

theorem times_pays {cost : Value → Nat} (htakes : element.TakesBytes defs)
    (hcost : ∀ input v rest, element.read defs n input = .value v rest → Pays input rest (cost v))
    {count : Nat} {vs : List Value} (h : times (element.read defs n) count input = .value vs rest) :
    vs.length = count ∧ rest.length + 4 * (count + (vs.map cost).sum) ≤ input.length := by
  induction count generalizing input vs with
  | zero =>
    obtain ⟨rfl, rfl⟩ := pure_eq_value.mp h
    exact ⟨rfl, Nat.le_refl _⟩
  | succ count ih =>
    rw [times] at h
    obtain ⟨v, mid, hv, h⟩ := bind_eq_value.mp h
    obtain ⟨vs, left, hvs, h⟩ := bind_eq_value.mp h
    obtain ⟨rfl, rfl⟩ := pure_eq_value.mp h
    obtain ⟨hlength, hrest⟩ := ih hvs
    have hfirst : mid.length + 4 * cost v + 4 ≤ input.length := by
      rcases hcost input v mid hv with ⟨rfl, -⟩ | hle
      · exact absurd (reading_of_read hv) (htakes mid v)
      · exact hle
    refine ⟨congrArg (· + 1) hlength, ?_⟩
    rw [List.map_cons, List.sum_cons]
    omega

theorem all_pays {cost : Schema → Value → Nat} {schemas : List Schema}
    (hcost : ∀ s ∈ schemas, ∀ input v rest, s.read defs n input = .value v rest →
      Pays input rest (cost s v))
    {vs : List Value} (h : all (schemas.map (read defs n)) input = .value vs rest) :
    schemas.length = vs.length ∧
      Pays input rest ((schemas.zip vs).map fun p => cost p.1 p.2).sum := by
  induction schemas generalizing input vs with
  | nil =>
    obtain ⟨rfl, rfl⟩ := pure_eq_value.mp h
    exact ⟨rfl, .inl ⟨rfl, rfl⟩⟩
  | cons s schemas ih =>
    rw [List.map_cons, all] at h
    obtain ⟨v, mid, hv, h⟩ := bind_eq_value.mp h
    obtain ⟨vs, left, hvs, h⟩ := bind_eq_value.mp h
    obtain ⟨rfl, rfl⟩ := pure_eq_value.mp h
    obtain ⟨hlength, hlater⟩ := ih (fun t ht => hcost t (List.mem_cons_of_mem s ht)) hvs
    rw [List.zip_cons_cons, List.map_cons, List.sum_cons]
    exact ⟨congrArg (· + 1) hlength, (hcost s List.mem_cons_self input v mid hv).add hlater⟩

/-! ### A whole item -/

/-- The elements of a sequence are as many as its count, and each of them takes a word. -/
theorem row_pays {cost : Value → Nat} (htakes : element.TakesBytes defs)
    (hcost : ∀ input v rest, element.read defs n input = .value v rest → Pays input rest (cost v))
    {container : Schema} (hcontainer : container.element? = some element)
    (h : container.read defs (n + 1) input = .value v rest) :
    ∃ count mid vs, Bytes.ofNat 4 count ++ mid = input ∧ count < UInt32.size ∧ v = .list vs ∧
      vs.length = count ∧ rest.length + 4 * (count + (vs.map cost).sum) ≤ mid.length := by
  rw [read_of_element? hcontainer] at h
  obtain ⟨count, mid, hword, hitems⟩ := bind_eq_value.mp h
  obtain ⟨hcount, rfl⟩ := word_eq_value.mp hword
  obtain ⟨vs, left, hvs, hv⟩ := bind_eq_value.mp hitems
  obtain ⟨rfl, rfl⟩ := pure_eq_value.mp hv
  obtain ⟨hlength, hrest⟩ := times_pays htakes hcost hvs
  exact ⟨count, mid, vs, rfl, hcount, rfl, hlength, hrest⟩

/-- **An item takes a word for each element in it.** -/
theorem read_pays (hrows : schema.RowsTakeBytes defs)
    (h : schema.read defs n input = .value v rest) :
    Pays input rest (schema.elements defs d v) := by
  -- The induction is on the depth to which elements are counted: at zero there are none to pay for.
  induction d generalizing n schema input rest v with
  | zero => exact .of_isBehind (takesWords_read n input v rest h)
  | succ d ih =>
    have hbehind : rest.IsBehind input := takesWords_read n input v rest h
    cases n with
    | zero => cases h
    | succ n =>
      cases schema with
      | option inner =>
        obtain ⟨k, mid, hword, hbody⟩ := bind_eq_value.mp h
        rcases k with _ | _ | k
        · obtain ⟨rfl, rfl⟩ := pure_eq_value.mp hbody
          exact .of_isBehind hbehind
        · obtain ⟨u, left, hu, hv⟩ := bind_eq_value.mp hbody
          obtain ⟨rfl, rfl⟩ := pure_eq_value.mp hv
          rw [elements_of_one rfl rfl]
          exact .behind_word hword (ih (hrows.enter .option) hu)
        · cases hbody
      | seq element | unsized container element =>
        have htakes : element.TakesBytes defs := hrows _ element .refl rfl
        have helement : element.RowsTakeBytes defs := hrows.enter (enters_of_element? rfl)
        obtain ⟨count, mid, vs, rfl, -, rfl, hlength, hrest⟩ :=
          row_pays htakes (fun _ _ _ hv => ih helement hv) rfl h
        rw [elements_row rfl, hlength]
        right
        rw [List.length_append, Bytes.length_ofNat]
        omega
      | record fields =>
        obtain ⟨vs, left, hvs, hv⟩ := bind_eq_value.mp h
        obtain ⟨rfl, rfl⟩ := pure_eq_value.mp hv
        have hfield (s : Schema) (hs : s ∈ fields) (input : Bytes) (v : Value) (rest : Bytes)
            (hv : s.read defs n input = .value v rest) :
            Pays input rest (s.elements defs d v) := ih (hrows.enter (.field hs)) hv
        obtain ⟨hlength, hpays⟩ := all_pays hfield hvs
        rw [elements_record hlength]
        exact hpays
      | enum variants =>
        obtain ⟨index, mid, hword, hbody⟩ := bind_eq_value.mp h
        cases hs : variants[index]? with
        | none =>
          rw [hs] at hbody
          cases hbody
        | some s =>
          rw [hs] at hbody
          obtain ⟨u, left, hu, hv⟩ := bind_eq_value.mp hbody
          obtain ⟨rfl, rfl⟩ := pure_eq_value.mp hv
          have hindex : index < UInt32.size := (word_eq_value.mp hword).1
          have hparts : (enum variants).parts? defs (.variant index u) = some [(s, u)] := by
            simp only [parts?, if_pos hindex, hs, Option.map_some]
          rw [elements_of_one rfl hparts]
          exact .behind_word hword (ih (hrows.enter (.variant (List.mem_of_getElem? hs))) hu)
      | ref name =>
        cases hs : defs.lookup name with
        | none =>
          simp only [read, hs] at h
          cases h
        | some s =>
          simp only [read, hs] at h
          have hparts : (ref name).parts? defs v = some [(s, v)] := by
            simp only [parts?, hs, Option.map_some]
          rw [elements_of_one rfl hparts]
          exact ih (hrows.enter (.ref hs)) h
      | _ =>
        rw [elements_leaf]
        · exact .of_isBehind hbehind
        · intro inner henters
          cases henters

theorem takesBytes_iff : schema.TakesBytes defs ↔ ∀ v, schema.reading defs [] ≠ .value v [] := by
  refine ⟨fun h v => h [] v, fun h input v hread => ?_⟩
  have hsteady : Reader.Steady (schema.reading defs) := steady_reading
  obtain ⟨taken, htaken, hany⟩ := hsteady.value hread
  obtain rfl : taken = [] := List.append_left_eq_self.mp htaken
  exact h v (hany [])

/-! ### Counts -/

theorem length_visits_le (h : schema.element? = some element) (input : Bytes) :
    (visits defs schema input).length ≤ Bytes.toNat (input.take 4) := by
  have hrow : visits defs schema input =
      behindWord input fun count rest => row defs (.replicate count element) rest := by
    cases schema with
    | seq | unsized =>
      obtain rfl := Option.some.inj h
      rfl
    | _ => cases h
  rw [hrow, behindWord]
  cases hword : Reader.word 4 input with
  | value count rest =>
    obtain ⟨hcount, rfl⟩ := word_eq_value.mp hword
    rw [List.take_left' (Bytes.length_ofNat 4 count), Bytes.toNat_ofNat hcount]
    exact length_row_le.trans_eq List.length_replicate
  | failed e rest => exact Nat.zero_le _
  | tooDeep => exact Nat.zero_le _

theorem elements_le (hrows : schema.RowsTakeBytes defs) (h : schema.decode defs input = .ok v) :
    4 * schema.elements defs d v ≤ input.length := by
  have hle := (read_pays (d := d) hrows (decode_eq_ok_iff_reading.mp h)).le
  rw [List.length_nil, Nat.zero_add] at hle
  exact hle

/-- A count that the input has too few words for is an error, wherever in an item it stands. -/
theorem reading_ne_value_of_count {container : Schema} {count : Nat} {left : Bytes}
    (hrows : schema.RowsTakeBytes defs)
    (hplace : Relation.ReflTransGen (Visits defs) (schema, input)
      (container, Bytes.ofNat 4 count ++ left))
    (hcontainer : container.element? = some element) (hcount : count < UInt32.size)
    (hleft : left.length < 4 * count) : schema.reading defs input ≠ .value v rest := by
  intro h
  obtain ⟨u, after, hu⟩ := exists_value_of_visits hplace h
  change container.read defs _ (Bytes.ofNat 4 count ++ left) = .value u after at hu
  generalize container.readDepth defs _ = depth at hu
  cases depth with
  | zero => cases hu
  | succ depth =>
    have htakes : element.TakesBytes defs := hrows.visit hplace container element .refl hcontainer
    have hcost (input : Bytes) (w : Value) (rest : Bytes)
        (hw : element.read defs depth input = .value w rest) : Pays input rest 0 :=
      .of_isBehind (takesWords_read depth input w rest hw)
    obtain ⟨k, mid, vs, hinput, hk, -, hlength, hpaid⟩ := row_pays htakes hcost hcontainer hu
    obtain ⟨hword, rfl⟩ := List.append_inj hinput (by simp)
    -- The number that was read is the word that stands there, so `k` elements have to be paid for.
    have hsame : k = count := by
      rw [← Bytes.toNat_ofNat (w := 4) hk, hword, Bytes.toNat_ofNat hcount]
    omega

/-! ### Main statement -/

/-- **Decoding ends, and its result is no larger than its input.**  Let every way from a definition
back to itself be through an option, a sequence, a map or an enumeration.  Then visits do not go on
for ever; as they are all that reading consists of, it ends, and comes to one and the same at every
depth that is great enough.  Between two readings of one definition inside each other there are at
least four bytes, and a sequence visits no more elements than its count says, which is a word, even
if they take no bytes.  Where all elements take bytes, those of all sequences and maps in a decoded
value together are no more than a quarter of the bytes; and if anywhere on the way a count comes up
that is more than a quarter of the bytes behind it, decoding fails. -/
theorem decoding_ends (defs : Defs) (hdefs : defs.IsGuarded) :
    (WellFounded fun q p => Visits defs p q) ∧
      (∀ schema n input, read defs (n + 1) schema input = .tooDeep ↔
        ∃ p ∈ visits defs schema input, p.1.read defs n p.2 = .tooDeep) ∧
      (∀ schema input, reading defs schema input ≠ .tooDeep ∧
        ∃ n, ∀ m, n ≤ m → schema.read defs m input = schema.reading defs input) ∧
      (∀ name input rest,
        Relation.TransGen (Visits defs) (ref name, input) (ref name, rest) →
          rest.length + 4 ≤ input.length) ∧
      (∀ container element input, container.element? = some element →
        (visits defs container input).length ≤ Bytes.toNat (input.take 4) ∧
          Bytes.toNat (input.take 4) < UInt32.size) ∧
      ∀ schema, schema.RowsTakeBytes defs → ∀ input,
        (∀ v, schema.decode defs input = .ok v →
          ∀ d, 4 * schema.elements defs d v ≤ input.length) ∧
        ∀ container element count left,
          Relation.ReflTransGen (Visits defs) (schema, input)
            (container, Bytes.ofNat 4 count ++ left) →
          container.element? = some element → count < UInt32.size → left.length < 4 * count →
            ∃ e, schema.decode defs input = .error e ∧
              ∃ rest, schema.reading defs input = .failed e rest := by
  refine ⟨wellFounded_visits hdefs, fun schema n input => read_succ_eq_tooDeep_iff, ?_,
    fun name input rest h => length_le_of_transGen_ref hdefs h, ?_, ?_⟩
  · intro schema input
    have hends : schema.reading defs input ≠ .tooDeep := reading_ne_tooDeep hdefs schema input
    exact ⟨hends, schema.readDepth defs input.length, fun m hm => read_eq_of_le hm hends⟩
  · intro container element input hcontainer
    refine ⟨length_visits_le hcontainer input, ?_⟩
    have hlength : (input.take 4).length ≤ 4 := List.length_take_le 4 input
    exact (Bytes.toNat_lt _).trans_le (Nat.pow_le_pow_right (by decide) hlength)
  · intro schema hrows input
    refine ⟨fun v h d => elements_le hrows h, ?_⟩
    intro container element count left hplace hcontainer hcount hleft
    cases hreading : schema.reading defs input with
    | value v rest =>
      exact absurd hreading
        (reading_ne_value_of_count hrows hplace hcontainer hcount hleft)
    | failed e rest => exact ⟨e, by rw [decode, hreading], rest, rfl⟩
    | tooDeep => exact absurd hreading (reading_ne_tooDeep hdefs schema input)

/-- Trees of numbers, each with a counted row of further trees: one of two nodes, and one with the
greatest count there is, where eight bytes are left. -/
theorem decoding_ends_tree :
    let tree : Schema := .record [.int .u32, .seq (.ref "tree")]
    let defs : Defs := [("tree", tree)]
    let small : Bytes := [0, 0, 0, 7, 0, 0, 0, 1, 0, 0, 0, 8, 0, 0, 0, 0]
    let hostile : Bytes := [0, 0, 0, 7, 255, 255, 255, 255, 0, 0, 0, 8, 0, 0, 0, 0]
    let v : Value := .list [.int 7, .list [.list [.int 8, .list []]]]
    defs.IsGuarded ∧ (ref "tree").RowsTakeBytes defs ∧
      ((ref "tree").decode defs small = .ok v ∧ (ref "tree").elements defs 3 v = 1 ∧
        ∀ d, 4 * (ref "tree").elements defs d v ≤ 16) ∧
      ∃ e, (ref "tree").decode defs hostile = .error e := by
  intro tree defs small hostile v
  have hlookup {name : String} {s : Schema} (h : defs.lookup name = some s) :
      s = .record [.int .u32, .seq (.ref "tree")] := by
    have hmem := mem_of_lookup h
    rw [List.mem_singleton] at hmem
    exact (Prod.mk.inj hmem).2
  have hfield {s : Schema} (h : s ∈ [Schema.int .u32, .seq (.ref "tree")]) :
      s = .int .u32 ∨ s = .seq (.ref "tree") := by simpa using h
  have hguarded : defs.IsGuarded := by
    have hafter (name : String) (s : Schema)
        (h : Relation.TransGen (EntersBare defs) (ref name) s) :
        s = .record [.int .u32, .seq (.ref "tree")] ∨ s = .int .u32 ∨ s = .seq (.ref "tree") := by
      induction h with
      | single h =>
        cases h.1 with
        | ref h => exact .inl (hlookup h)
      | tail _ h ih =>
        rcases ih with rfl | rfl | rfl
        · cases h.1 with
          | field hmem => exact .inr (hfield hmem)
        · cases h.1
        · exact absurd rfl h.2
    intro name h
    rcases hafter name _ h with h | h | h <;> cases h
  have hrows : (ref "tree").RowsTakeBytes defs := by
    have hunder (s : Schema) (h : Relation.ReflTransGen (Enters defs) (ref "tree") s) :
        s = .ref "tree" ∨ s = .record [.int .u32, .seq (.ref "tree")] ∨ s = .int .u32 ∨
          s = .seq (.ref "tree") := by
      induction h with
      | refl => exact .inl rfl
      | tail _ h ih =>
        rcases ih with rfl | rfl | rfl | rfl
        · cases h with
          | ref h => exact .inr (.inl (hlookup h))
        · cases h with
          | field hmem => exact .inr (.inr (hfield hmem))
        · cases h
        · cases h with
          | seq => exact .inl rfl
    intro node element hnode helement
    rcases hunder node hnode with rfl | rfl | rfl | rfl
    · cases helement
    · cases helement
    · cases helement
    · obtain rfl := Option.some.inj helement
      have hnone : (ref "tree").read defs 3 [] = .failed (.truncated 4 0) [] := by rfl
      refine takesBytes_iff.mpr fun w hw => ?_
      rw [reading_eq_read (by rw [hnone]; nofun), hnone] at hw
      cases hw
  obtain ⟨-, -, -, -, -, hbounds⟩ := decoding_ends defs hguarded
  have hsmall : (ref "tree").decode defs small = .ok v :=
    decode_eq_ok_iff_reading.mpr (reading_of_read (n := 7) rfl)
  refine ⟨hguarded, hrows, ⟨hsmall, rfl, (hbounds _ hrows small).1 v hsmall⟩, ?_⟩
  have hnumber : (Schema.int .u32).reading defs hostile =
      .value (.int 7) (Bytes.ofNat 4 (UInt32.size - 1) ++ [0, 0, 0, 8, 0, 0, 0, 0]) :=
    reading_of_read (n := 1) rfl
  have hplace : Relation.ReflTransGen (Visits defs) (ref "tree", hostile)
      (.seq (.ref "tree"), Bytes.ofNat 4 (UInt32.size - 1) ++ [0, 0, 0, 8, 0, 0, 0, 0]) := by
    refine .tail (.single (b := (tree, hostile)) ?_) ?_
    · show (tree, hostile) ∈ (defs.lookup "tree").toList.map fun s => (s, hostile)
      simp [defs]
    · show _ ∈ row defs [.int .u32, .seq (.ref "tree")] hostile
      rw [row, hnumber]
      exact List.mem_cons_of_mem _ List.mem_cons_self
  obtain ⟨e, he, -⟩ := (hbounds _ hrows hostile).2 _ _ _ _ hplace rfl (by decide) (by decide)
  exact ⟨e, he⟩

end Schema

end CallWire
