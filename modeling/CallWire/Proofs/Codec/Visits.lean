import CallWire.Proofs.Codec.Reading
import Mathlib.Algebra.Order.BigOperators.Group.List
import Mathlib.Data.Set.Finite.Basic
import Mathlib.Logic.Relation
import Mathlib.Order.WellFounded

/-!
# CallWire.Proofs.Codec.Visits — what is read inside what

To read an item is to read others inside it, at places of the same input: an option's value, the
elements of a sequence one after the other, a definition in the place of its name.  These visits are
all that the nesting of reading consists of.  Each is a word further on, or it is to a field or to a
definition at the same place; so where no definition leads back to itself through fields and
references alone, visits do not go on for ever, and reading ends.
-/

namespace CallWire

namespace Reader

variable {α β : Type} {r : Reader α} {f : α → Reader β} {input : Bytes}

/-! ### Readers without nesting -/

/-- The reader does not recurse. -/
def IsFlat (r : Reader α) : Prop := ∀ input, r input ≠ .tooDeep

theorem isFlat_pure (a : α) : (Pure.pure a : Reader α).IsFlat := fun _ => nofun

theorem isFlat_fail (e : CodecError) : (fail e : Reader α).IsFlat := fun _ => nofun

theorem IsFlat.bind (hr : r.IsFlat) (hf : ∀ a, (f a).IsFlat) : (r >>= f).IsFlat := by
  intro input h
  rcases bind_eq_tooDeep h with h | ⟨a, mid, -, h⟩
  · exact hr input h
  · exact hf a mid h

theorem isFlat_take (n : Nat) : (take n).IsFlat := by
  intro input
  unfold take
  dsimp only
  split_ifs <;> nofun

theorem isFlat_word (w : Nat) : (word w).IsFlat := (isFlat_take w).bind fun _ => isFlat_pure _

theorem isFlat_bool : bool.IsFlat := by
  refine (isFlat_word 4).bind fun n => ?_
  split
  · exact isFlat_pure false
  · exact isFlat_pure true
  · exact isFlat_fail _

theorem isFlat_char : char.IsFlat := by
  refine (isFlat_word 4).bind fun n => ?_
  split_ifs
  · exact isFlat_pure _
  · exact isFlat_fail _

theorem isFlat_int (kind : IntKind) : (int kind).IsFlat := by
  refine (isFlat_word kind.width).bind fun n => ?_
  dsimp only
  split_ifs
  · exact isFlat_pure _
  · exact isFlat_fail _

theorem isFlat_counted : counted.IsFlat := by
  refine (isFlat_word 4).bind fun n => (isFlat_take n).bind fun bs =>
    (isFlat_take (padding n)).bind fun pad => ?_
  split_ifs
  · exact isFlat_pure bs
  · exact isFlat_fail _

theorem isFlat_text : text.IsFlat := by
  refine isFlat_counted.bind fun bs => ?_
  split
  · exact isFlat_pure _
  · exact isFlat_fail _

theorem bind_isFlat_eq_tooDeep_iff (hf : ∀ a, (f a).IsFlat) :
    (r >>= f) input = .tooDeep ↔ r input = .tooDeep := by
  refine ⟨fun h => ?_, bind_of_tooDeep⟩
  rcases bind_eq_tooDeep h with h | ⟨a, mid, -, h⟩
  · exact h
  · exact absurd h (hf a mid)

theorem times_eq_all (r : Reader α) (n : Nat) : times r n = all (List.replicate n r) := by
  induction n with
  | zero => rfl
  | succ n ih => rw [times, ih, List.replicate_succ, all]

end Reader

namespace Schema

open Reader

variable {defs : Defs} {schema : Schema} {schemas : List Schema} {input rest : Bytes}
  {n : Nat} {p q : Schema × Bytes}

/-! ### Visits -/

/-- The element of a sequence, a map included. -/
def element? : Schema → Option Schema
  | seq element | unsized _ element => some element
  | _ => none

/-- The items of a row with their inputs, up to the first that cannot be read. -/
def row (defs : Defs) : List Schema → Bytes → List (Schema × Bytes)
  | [], _ => []
  | schema :: schemas, input =>
    (schema, input) ::
      match schema.reading defs input with
      | .value _ rest => row defs schemas rest
      | _ => []

/-- What follows depending on the word at the front of the input. -/
def behindWord (input : Bytes) (follow : Nat → Bytes → List (Schema × Bytes)) :
    List (Schema × Bytes) :=
  match Reader.word 4 input with
  | .value n rest => follow n rest
  | _ => []

/-- The recursive calls of reading an item, with their inputs. -/
def visits (defs : Defs) : Schema → Bytes → List (Schema × Bytes)
  | option inner, input => behindWord input fun n rest => if n = 1 then [(inner, rest)] else []
  | seq element, input | unsized _ element, input =>
    behindWord input fun count rest => row defs (.replicate count element) rest
  | record fields, input => row defs fields input
  | enum variants, input =>
    behindWord input fun index rest => variants[index]?.toList.map fun s => (s, rest)
  | ref name, input => (defs.lookup name).toList.map fun s => (s, input)
  | _, _ => []

/-- The second is a recursive call of the first. -/
def Visits (defs : Defs) (p q : Schema × Bytes) : Prop := q ∈ visits defs p.1 p.2

theorem read_of_element? {element : Schema} (h : schema.element? = some element) :
    schema.read defs (n + 1) = do
      let count ← Reader.word 4
      return .list (← times (element.read defs n) count) := by
  cases schema with
  | seq | unsized =>
    obtain rfl := Option.some.inj h
    rfl
  | _ => cases h

theorem mem_behindWord {follow : Nat → Bytes → List (Schema × Bytes)} :
    p ∈ behindWord input follow ↔ ∃ n rest, Reader.word 4 input = .value n rest ∧
      p ∈ follow n rest := by
  unfold behindWord
  cases Reader.word 4 input <;> simp

theorem all_eq_tooDeep_iff :
    all (schemas.map (read defs n)) input = .tooDeep ↔
      ∃ p ∈ row defs schemas input, p.1.read defs n p.2 = .tooDeep := by
  induction schemas generalizing input with
  | nil => simp [all, row, isFlat_pure _ input]
  | cons s schemas ih =>
    rw [List.map_cons, all, row, List.exists_mem_cons_iff]
    by_cases hdeep : s.read defs n input = .tooDeep
    · simp only [hdeep, true_or, iff_true]
      exact bind_of_tooDeep hdeep
    · rw [reading_eq_read hdeep]
      simp only [hdeep, false_or]
      cases hfirst : s.read defs n input with
      | value v mid =>
        rw [bind_of_value hfirst, bind_isFlat_eq_tooDeep_iff fun vs => isFlat_pure _]
        exact ih
      | failed e mid =>
        rw [bind_of_failed hfirst]
        simp
      | tooDeep => exact absurd hfirst hdeep

theorem bind_word_eq_tooDeep_iff {α : Type} {f : Nat → Reader α}
    {follow : Nat → Bytes → List (Schema × Bytes)}
    (hf : ∀ k rest, f k rest = .tooDeep ↔ ∃ p ∈ follow k rest, p.1.read defs n p.2 = .tooDeep) :
    (Reader.word 4 >>= f) input = .tooDeep ↔
      ∃ p ∈ behindWord input follow, p.1.read defs n p.2 = .tooDeep := by
  unfold behindWord
  cases hword : Reader.word 4 input with
  | value k rest =>
    rw [bind_of_value hword]
    exact hf k rest
  | failed e rest =>
    rw [bind_of_failed hword]
    simp
  | tooDeep => exact absurd hword (isFlat_word 4 input)

/-- **Reading is `tooDeep` at a depth if some recursive call is at one less.** -/
theorem read_succ_eq_tooDeep_iff :
    schema.read defs (n + 1) input = .tooDeep ↔
      ∃ p ∈ visits defs schema input, p.1.read defs n p.2 = .tooDeep := by
  -- A scalar is read without a recursive call, so neither side holds.
  have hscalar {α : Type} {r : Reader α} {f : α → Value} (hr : r.IsFlat) :
      (do return f (← r) : Reader Value) input = .tooDeep ↔
        ∃ p ∈ ([] : List (Schema × Bytes)), p.1.read defs n p.2 = .tooDeep := by
    have hflat : (do return f (← r) : Reader Value).IsFlat := hr.bind fun a => isFlat_pure (f a)
    simp [hflat input]
  have hrow (element : Schema) (count : Nat) (rest : Bytes) :
      (do return .list (← times (element.read defs n) count) : Reader Value) rest = .tooDeep ↔
        ∃ p ∈ row defs (.replicate count element) rest, p.1.read defs n p.2 = .tooDeep := by
    rw [bind_isFlat_eq_tooDeep_iff fun vs => isFlat_pure _, times_eq_all, ← List.map_replicate]
    exact all_eq_tooDeep_iff
  cases schema with
  | bool | readable => exact hscalar isFlat_bool
  | int kind => exact hscalar (isFlat_int kind)
  | float32 => exact hscalar (isFlat_word 4)
  | float64 => exact hscalar (isFlat_word 8)
  | char => exact hscalar isFlat_char
  | string => exact hscalar isFlat_text
  | bytes => exact hscalar isFlat_counted
  | unit => simp [visits, isFlat_pure _ input]
  | wideInt | any | ignored => simp [visits, isFlat_fail _ input]
  | option inner =>
    refine bind_word_eq_tooDeep_iff fun k rest => ?_
    rcases k with _ | _ | k
    · simp [isFlat_pure _ rest]
    · refine (bind_isFlat_eq_tooDeep_iff fun v => isFlat_pure _).trans ?_
      simp
    · simp [isFlat_fail _ rest]
  | seq element | unsized container element =>
    exact bind_word_eq_tooDeep_iff fun count rest => hrow element count rest
  | record fields =>
    exact (bind_isFlat_eq_tooDeep_iff fun vs => isFlat_pure _).trans all_eq_tooDeep_iff
  | enum variants =>
    refine bind_word_eq_tooDeep_iff fun index rest => ?_
    cases variants[index]? with
    | none => simp [isFlat_fail _ rest]
    | some s =>
      refine (bind_isFlat_eq_tooDeep_iff fun v => isFlat_pure _).trans ?_
      simp
  | ref name =>
    simp only [read, visits]
    cases defs.lookup name with
    | none => simp [isFlat_fail _ input]
    | some s => simp

theorem reading_ne_tooDeep_of_visits
    (h : ∀ p ∈ visits defs schema input, p.1.reading defs p.2 ≠ .tooDeep) :
    schema.reading defs input ≠ .tooDeep := by
  let depth (p : Schema × Bytes) : Nat := p.1.readDepth defs p.2.length
  let together : Nat := ((visits defs schema input).map depth).sum
  have hread : schema.read defs (together + 1) input ≠ .tooDeep := by
    rw [ne_eq, read_succ_eq_tooDeep_iff]
    rintro ⟨p, hp, hdeep⟩
    have hle : depth p ≤ together :=
      List.single_le_sum (fun _ _ => Nat.zero_le _) _ (List.mem_map_of_mem hp)
    rw [read_eq_of_le hle (h p hp)] at hdeep
    exact h p hp hdeep
  rw [reading_eq_read hread]
  exact hread

/-! ### Where visits lead -/

theorem mem_row (h : p ∈ row defs schemas input) : p.1 ∈ schemas ∧ p.2.IsBehind input := by
  induction schemas generalizing input with
  | nil => cases h
  | cons s schemas ih =>
    rw [row] at h
    rcases List.mem_cons.mp h with rfl | h
    · exact ⟨List.mem_cons_self, .refl input⟩
    · cases hfirst : s.reading defs input with
      | value v mid =>
        rw [hfirst] at h
        obtain ⟨hmem, hbehind⟩ := ih h
        exact ⟨List.mem_cons_of_mem s hmem,
          hbehind.trans (takesWords_read (s.readDepth defs input.length) input v mid hfirst)⟩
      | failed e mid =>
        rw [hfirst] at h
        cases h
      | tooDeep =>
        rw [hfirst] at h
        cases h

theorem length_row_le : (row defs schemas input).length ≤ schemas.length := by
  induction schemas generalizing input with
  | nil => exact Nat.zero_le _
  | cons s schemas ih =>
    rw [row, List.length_cons, List.length_cons]
    refine Nat.succ_le_succ ?_
    cases s.reading defs input with
    | value v mid => exact ih
    | failed e mid => exact Nat.zero_le _
    | tooDeep => exact Nat.zero_le _

/-- The schemas that read a count or a discriminant first. -/
def isGuard : Schema → Bool
  | option _ | seq _ | unsized _ _ | enum _ => true
  | _ => false

/-- The second schema is directly under the first, which reads nothing before it. -/
def EntersBare (defs : Defs) (schema inner : Schema) : Prop :=
  Enters defs schema inner ∧ ¬ schema.isGuard

inductive Way (defs : Defs) : Schema × Bytes → Schema × Bytes → Prop
  | option {inner : Schema} {input rest : Bytes} (hword : Reader.word 4 input = .value 1 rest) :
      Way defs (option inner, input) (inner, rest)
  | element {container element : Schema} {input mid : Bytes} {count : Nat} {q : Schema × Bytes}
      (helement : container.element? = some element)
      (hword : Reader.word 4 input = .value count mid)
      (hmem : q ∈ row defs (.replicate count element) mid) : Way defs (container, input) q
  | field {fields : List Schema} {input : Bytes} {q : Schema × Bytes}
      (hmem : q ∈ row defs fields input) : Way defs (record fields, input) q
  | variant {variants : List Schema} {s : Schema} {input rest : Bytes} {index : Nat}
      (hword : Reader.word 4 input = .value index rest) (hs : variants[index]? = some s) :
      Way defs (enum variants, input) (s, rest)
  | ref {name : String} {s : Schema} {input : Bytes} (hs : defs.lookup name = some s) :
      Way defs (ref name, input) (s, input)

theorem Visits.way (h : Visits defs p q) : Way defs p q := by
  obtain ⟨schema, input⟩ := p
  cases schema with
  | option inner =>
    obtain ⟨n, mid, hword, hmem⟩ := mem_behindWord.mp h
    split_ifs at hmem with hn
    · subst hn
      rw [List.mem_singleton.mp hmem]
      exact .option hword
    · cases hmem
  | seq element | unsized container element =>
    obtain ⟨count, mid, hword, hmem⟩ := mem_behindWord.mp h
    exact .element rfl hword hmem
  | record fields => exact .field h
  | enum variants =>
    obtain ⟨index, mid, hword, hmem⟩ := mem_behindWord.mp h
    obtain ⟨s, hs, rfl⟩ := List.mem_map.mp hmem
    exact .variant hword (Option.mem_toList.mp hs)
  | ref name =>
    obtain ⟨s, hs, rfl⟩ := List.mem_map.mp h
    exact .ref (Option.mem_toList.mp hs)
  | _ => cases h

theorem enters_of_element? {element : Schema} (h : schema.element? = some element) :
    Enters defs schema element := by
  cases schema with
  | seq | unsized =>
    obtain rfl := Option.some.inj h
    constructor
  | _ => cases h

theorem Visits.enters (h : Visits defs p q) : Enters defs p.1 q.1 := by
  cases h.way with
  | option => exact .option
  | element helement _ hmem =>
    rw [List.eq_of_mem_replicate (mem_row hmem).1]
    exact enters_of_element? helement
  | field hmem => exact .field (mem_row hmem).1
  | «variant» _ hs => exact .variant (List.mem_of_getElem? hs)
  | ref hs => exact .ref hs

theorem length_of_word {k : Nat} (h : Reader.word 4 input = .value k rest) :
    rest.length + 4 = input.length := by
  obtain ⟨-, rfl⟩ := word_eq_value.mp h
  rw [List.length_append, Bytes.length_ofNat, Nat.add_comm]

/-- **A recursive call is at least a word further on**, unless nothing is read before it. -/
theorem Visits.length_le_or (h : Visits defs p q) :
    q.2.length + 4 ≤ p.2.length ∨ q.2 = p.2 ∧ EntersBare defs p.1 q.1 := by
  have henters := h.enters
  cases h.way with
  | option hword | «variant» hword => exact .inl (length_of_word hword).le
  | element _ hword hmem =>
    have hlength := length_of_word hword
    rcases (mem_row hmem).2.eq_or_le with heq | hle
    · rw [heq]
      exact .inl hlength.le
    · exact .inl ((hle.trans (Nat.le_add_right _ 4)).trans_eq hlength)
  | field hmem =>
    rcases (mem_row hmem).2.eq_or_le with heq | hle
    · exact .inr ⟨heq, henters, nofun⟩
    · exact .inl hle
  | ref => exact .inr ⟨rfl, henters, nofun⟩

theorem length_le_or_of_transGen (h : Relation.TransGen (Visits defs) p q) :
    q.2.length + 4 ≤ p.2.length ∨
      q.2 = p.2 ∧ Relation.TransGen (EntersBare defs) p.1 q.1 := by
  induction h with
  | single h =>
    rcases h.length_le_or with hle | ⟨heq, hbare⟩
    · exact .inl hle
    · exact .inr ⟨heq, .single hbare⟩
  | tail _ h ih =>
    rcases h.length_le_or with hle | ⟨heq, hbare⟩
    · have hearlier := ih.imp_right fun h => h.1
      rcases hearlier with hle' | heq'
      · exact .inl (by omega)
      · rw [heq'] at hle
        exact .inl hle
    · rw [heq]
      exact ih.imp_right fun h => ⟨h.1, h.2.tail hbare⟩

/-! ### Guarded definitions -/

end Schema

/-- Every cycle of definitions passes an option, a sequence or an enumeration. -/
def Defs.IsGuarded (defs : Defs) : Prop :=
  ∀ name, ¬ Relation.TransGen (Schema.EntersBare defs) (.ref name) (.ref name)

namespace Schema

open Reader

variable {defs : Defs} {schema : Schema} {input rest : Bytes} {n : Nat} {p q : Schema × Bytes}

theorem acc_entersBare
    (h : ∀ name, Relation.ReflTransGen (EntersBare defs) schema (ref name) →
      Acc (fun inner outer => EntersBare defs outer inner) (ref name)) :
    Acc (fun inner outer => EntersBare defs outer inner) schema := by
  induction hsize : schema.size using Nat.strong_induction_on generalizing schema with
  | _ k ih =>
    subst hsize
    by_cases href : ∃ name, schema = ref name
    · obtain ⟨name, rfl⟩ := href
      exact h name .refl
    · refine Acc.intro schema fun inner hinner => ?_
      have hlt : inner.size < schema.size := by
        cases hinner.1 with
        | option | seq | unsized => simp [size]
        | field hmem | «variant» hmem =>
          have := size_le_sizes hmem
          simp only [size]
          omega
        | ref => exact absurd ⟨_, rfl⟩ href
      exact ih inner.size hlt (fun name hname => h name (.head hinner hname)) rfl

/-- By induction on the definitions that were not entered yet. -/
theorem wellFounded_entersBare (hdefs : defs.IsGuarded) :
    WellFounded fun inner outer => EntersBare defs outer inner := by
  let Before (inner outer : {name // name ∈ defs.map Prod.fst}) : Prop :=
    Relation.TransGen (EntersBare defs) (ref outer.1) (ref inner.1)
  have htrans : IsTrans _ Before := ⟨fun _ _ _ hab hbc => hbc.trans hab⟩
  have hirrefl : Std.Irrefl Before := ⟨fun name => hdefs name.1⟩
  have hfinite : Finite {name // name ∈ defs.map Prod.fst} :=
    (List.finite_toSet (defs.map Prod.fst)).to_subtype
  -- There are finitely many definitions and none enters itself, so only finitely many follow.
  have hwell : WellFounded Before := Finite.wellFounded_of_trans_of_irrefl Before
  have hundefined (name : String) (hname : name ∉ defs.map Prod.fst) :
      Acc (fun inner outer => EntersBare defs outer inner) (ref name) := by
    refine Acc.intro _ fun inner hinner => ?_
    cases hinner.1 with
    | ref hlookup => exact absurd (List.mem_map_of_mem (mem_of_lookup hlookup)) hname
  have hdefined (name : {name // name ∈ defs.map Prod.fst}) :
      Acc (fun inner outer => EntersBare defs outer inner) (ref name.1) := by
    induction name using hwell.induction with
    | _ name ih =>
      refine Acc.intro _ fun inner hinner => acc_entersBare fun other hother => ?_
      by_cases hmem : other ∈ defs.map Prod.fst
      · exact ih ⟨other, hmem⟩ (.head' hinner hother)
      · exact hundefined other hmem
  -- Any other schema comes to a reference within its own size.
  refine ⟨fun schema => acc_entersBare fun name _ => ?_⟩
  by_cases hmem : name ∈ defs.map Prod.fst
  · exact hdefined ⟨name, hmem⟩
  · exact hundefined name hmem

/-- **The recursion of reading is well-founded**: the input gets shorter, or the schema smaller. -/
theorem wellFounded_visits (hdefs : defs.IsGuarded) :
    WellFounded fun q p => Visits defs p q := by
  have hlex : WellFounded fun q p : Schema × Bytes =>
      Prod.Lex (· < ·) (fun inner outer => EntersBare defs outer inner)
        (q.2.length, q.1) (p.2.length, p.1) :=
    InvImage.wf _ (WellFounded.prod_lex Nat.lt_wfRel.wf (wellFounded_entersBare hdefs))
  refine Subrelation.wf (fun {q p} h => ?_) hlex
  rcases h.length_le_or with hle | ⟨heq, hbare⟩
  · exact .left _ _ (by omega)
  · rw [heq]
    exact .right _ hbare

theorem reading_ne_tooDeep (hdefs : defs.IsGuarded) (schema : Schema) (input : Bytes) :
    schema.reading defs input ≠ .tooDeep := by
  generalize hp : (schema, input) = p
  induction p using (wellFounded_visits hdefs).induction generalizing schema input with
  | _ p ih =>
    subst hp
    exact reading_ne_tooDeep_of_visits fun q hq => ih q hq q.1 q.2 rfl

theorem length_le_of_transGen_ref (hdefs : defs.IsGuarded) {name : String}
    (h : Relation.TransGen (Visits defs) (ref name, input) (ref name, rest)) :
    rest.length + 4 ≤ input.length := by
  rcases length_le_or_of_transGen h with hle | ⟨-, hbare⟩
  · exact hle
  · exact absurd hbare (hdefs name)

/-! ### What a reading that succeeds visits -/

theorem reading_of_read {v : Value} (h : schema.read defs n input = .value v rest) :
    schema.reading defs input = .value v rest := by
  rw [reading_eq_read (by rw [h]; nofun), h]

theorem exists_value_of_mem_row {schemas : List Schema} {vs : List Value}
    (h : all (schemas.map (read defs n)) input = .value vs rest) (hp : p ∈ row defs schemas input) :
    ∃ v left, p.1.reading defs p.2 = .value v left := by
  induction schemas generalizing input vs rest with
  | nil => cases hp
  | cons s schemas ih =>
    rw [List.map_cons, all] at h
    obtain ⟨v, mid, hfirst, h⟩ := bind_eq_value.mp h
    obtain ⟨vs, left, hrest, -⟩ := bind_eq_value.mp h
    have hreading : s.reading defs input = .value v mid := reading_of_read hfirst
    rw [row, hreading] at hp
    rcases List.mem_cons.mp hp with rfl | hp
    · exact ⟨v, mid, hreading⟩
    · exact ih hrest hp

theorem exists_value_of_read {v : Value} (h : schema.read defs n input = .value v rest)
    (hq : Visits defs (schema, input) q) : ∃ u left, q.1.reading defs q.2 = .value u left := by
  cases n with
  | zero => cases h
  | succ n =>
    cases hq.way with
    | option hword =>
      obtain ⟨_, _, hword', hinner⟩ := bind_eq_value.mp h
      obtain ⟨rfl, rfl⟩ := Reading.value.inj (hword.symm.trans hword')
      obtain ⟨u, left, hu, -⟩ := bind_eq_value.mp hinner
      exact ⟨u, left, reading_of_read hu⟩
    | element helement hword hmem =>
      obtain ⟨_, _, hword', hitems⟩ := bind_eq_value.mp (read_of_element? helement ▸ h)
      obtain ⟨rfl, rfl⟩ := Reading.value.inj (hword.symm.trans hword')
      obtain ⟨vs, left, hvs, -⟩ := bind_eq_value.mp hitems
      rw [times_eq_all, ← List.map_replicate] at hvs
      exact exists_value_of_mem_row hvs hmem
    | field hmem =>
      obtain ⟨vs, left, hvs, -⟩ := bind_eq_value.mp h
      exact exists_value_of_mem_row hvs hmem
    | «variant» hword hs =>
      obtain ⟨_, _, hword', hbody⟩ := bind_eq_value.mp h
      obtain ⟨rfl, rfl⟩ := Reading.value.inj (hword.symm.trans hword')
      rw [hs] at hbody
      obtain ⟨u, left, hu, -⟩ := bind_eq_value.mp hbody
      exact ⟨u, left, reading_of_read hu⟩
    | ref hs =>
      simp only [read, hs] at h
      exact ⟨v, rest, reading_of_read h⟩

theorem exists_value_of_visits {v : Value} (h : Relation.ReflTransGen (Visits defs) p q)
    (hp : p.1.reading defs p.2 = .value v rest) :
    ∃ u left, q.1.reading defs q.2 = .value u left := by
  induction h with
  | refl => exact ⟨v, rest, hp⟩
  | tail _ hlast ih =>
    obtain ⟨u, left, hu⟩ := ih
    exact exists_value_of_read hu hlast

end Schema

end CallWire
