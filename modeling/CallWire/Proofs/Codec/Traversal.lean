import CallWire.Codec.Stream
import CallWire.Proofs.Codec.Depth

/-!
# CallWire.Proofs.Codec.Traversal — what an item adds to the output

The places of an item are passed from the outside in and from left to right.  Each puts its own
bytes, until one refuses to be written; so what a failing item leaves behind is what the places
ahead of the failing one have put, the counts and discriminants around it included.  Nothing of this
looks at the output so far, and each place fills its last word.
-/

namespace CallWire

namespace Schema

variable {defs : Defs} {schema : Schema} {v : Value} {n : Nat}
  {todo todo' passed passed' inside places before later : List (Schema × Value)}

/-! ### The order of the places -/

/-- A preorder traversal: `passed` are the values in `todo` and those inside them. -/
inductive Passes (defs : Defs) : (todo passed : List (Schema × Value)) → Prop
  | done : Passes defs [] []
  | next {schema : Schema} {v : Value} {inside todo passed : List (Schema × Value)}
      (h : schema.parts? defs v = some inside) (hrest : Passes defs (inside ++ todo) passed) :
      Passes defs ((schema, v) :: todo) ((schema, v) :: passed)

theorem Passes.unique (h : Passes defs todo passed) (h' : Passes defs todo passed') :
    passed = passed' := by
  induction h generalizing passed' with
  | done =>
    cases h'
    rfl
  | next hinside _ ih =>
    cases h' with
    | next hinside' hrest' =>
      obtain rfl := Option.some.inj (hinside.symm.trans hinside')
      rw [ih hrest']

theorem Passes.append (h : Passes defs todo passed) (h' : Passes defs todo' passed') :
    Passes defs (todo ++ todo') (passed ++ passed') := by
  induction h with
  | done => exact h'
  | next hinside _ ih =>
    rw [List.append_assoc] at ih
    exact .next hinside ih

theorem exists_passes_row (h : ∀ p ∈ todo, ∃ passed, Passes defs [p] passed) :
    ∃ passed, Passes defs todo passed := by
  induction todo with
  | nil => exact ⟨[], .done⟩
  | cons p todo ih =>
    obtain ⟨passed, hpassed⟩ := h p List.mem_cons_self
    obtain ⟨passed', hpassed'⟩ := ih fun q hq => h q (List.mem_cons_of_mem p hq)
    exact ⟨passed ++ passed', hpassed.append hpassed'⟩

theorem exists_passes_of_fitsWithin (h : schema.fitsWithin defs n v) :
    ∃ passed, Passes defs [(schema, v)] passed := by
  induction n generalizing schema v with
  | zero => cases h
  | succ n ih =>
    obtain ⟨inside, hinside, hfits⟩ := fitsWithin_succ.mp h
    obtain ⟨passed, hpassed⟩ := exists_passes_row fun p hp => ih (hfits p hp)
    rw [← List.append_nil inside] at hpassed
    exact ⟨(schema, v) :: passed, .next hinside hpassed⟩

theorem Fits.exists_passes (h : schema.Fits defs v) :
    ∃ passed, Passes defs [(schema, v)] passed := by
  obtain ⟨n, hn⟩ := h
  exact exists_passes_of_fitsWithin hn

theorem Passes.written (h : Passes defs todo passed) (hfits : ∀ p ∈ todo, p.1.Fits defs p.2) :
    Written.concat (todo.map fun p => p.1.written defs p.2) =
      Written.concat (passed.map fun p => p.1.head p.2) := by
  induction h with
  | done => rfl
  | @next schema v inside todo passed hinside _ ih =>
    have hfirst : schema.Fits defs v := hfits (schema, v) List.mem_cons_self
    obtain ⟨_, hinside', hfitsInside⟩ := hfirst.inside
    obtain rfl := Option.some.inj (hinside.symm.trans hinside')
    have hall (p : Schema × Value) (hp : p ∈ inside ++ todo) : p.1.Fits defs p.2 := by
      rcases List.mem_append.mp hp with hp | hp
      · exact hfitsInside p hp
      · exact hfits p (List.mem_cons_of_mem _ hp)
    rw [List.map_cons, Written.concat_cons, hfirst.written hinside, Written.andThen_assoc,
      ← Written.concat_append, ← List.map_append, ih hall]
    rfl

/-! ### Heads in a row -/

/-- The bytes of the values without those inside them. -/
def ownBytes (places : List (Schema × Value)) : Bytes := places.flatMap fun p => p.1.own p.2

theorem concat_head_of_none (h : ∀ p ∈ places, p.1.refusal? p.2 = none) :
    Written.concat (places.map fun p => p.1.head p.2) = .ok (ownBytes places) := by
  induction places with
  | nil => rfl
  | cons p places ih =>
    have hfirst : p.1.head p.2 = .ok (p.1.own p.2) := by
      rw [head, h p List.mem_cons_self]
    rw [List.map_cons, Written.concat_cons, hfirst, ih fun q hq => h q (List.mem_cons_of_mem p hq)]
    rfl

theorem concat_head_of_some {p : Schema × Value} {e : CodecError}
    (hbefore : ∀ q ∈ before, q.1.refusal? q.2 = none) (hp : p.1.refusal? p.2 = some e) :
    Written.concat ((before ++ p :: later).map fun q => q.1.head q.2) =
      ⟨ownBytes before, some e⟩ := by
  have hfirst : p.1.head p.2 = .fail e := by
    rw [head, hp]
  rw [List.map_append, Written.concat_append, concat_head_of_none hbefore, List.map_cons,
    Written.concat_cons, hfirst, Written.fail_andThen, Written.ok_andThen]
  simp

theorem exists_first_refusal (h : ¬ ∀ p ∈ places, p.1.refusal? p.2 = none) :
    ∃ before p later e, places = before ++ p :: later ∧
      (∀ q ∈ before, q.1.refusal? q.2 = none) ∧ p.1.refusal? p.2 = some e := by
  induction places with
  | nil => exact absurd (List.forall_mem_nil _) h
  | cons p places ih =>
    cases hp : p.1.refusal? p.2 with
    | some e => exact ⟨[], p, places, e, rfl, List.forall_mem_nil _, hp⟩
    | none =>
      have hlater : ¬ ∀ q ∈ places, q.1.refusal? q.2 = none := fun hall =>
        h (List.forall_mem_cons.mpr ⟨hp, hall⟩)
      obtain ⟨before, q, later, e, rfl, hbefore, hq⟩ := ih hlater
      exact ⟨p :: before, q, later, e, rfl, List.forall_mem_cons.mpr ⟨hp, hbefore⟩, hq⟩

/-- A value is written up to the first place that cannot be. -/
theorem Fits.written_cases (h : schema.Fits defs v) (hplaces : Passes defs [(schema, v)] places) :
    (∀ p ∈ places, p.1.refusal? p.2 = none) ∧ schema.written defs v = .ok (ownBytes places) ∨
      ∃ before p later e, places = before ++ p :: later ∧
        (∀ q ∈ before, q.1.refusal? q.2 = none) ∧ p.1.refusal? p.2 = some e ∧
          schema.written defs v = ⟨ownBytes before, some e⟩ := by
  have hwritten := hplaces.written (List.forall_mem_singleton.mpr h)
  rw [List.map_singleton, Written.concat_cons, Written.concat_nil, Written.andThen_ok_nil]
    at hwritten
  rw [hwritten]
  by_cases hnone : ∀ p ∈ places, p.1.refusal? p.2 = none
  · exact .inl ⟨hnone, concat_head_of_none hnone⟩
  · obtain ⟨before, p, later, e, rfl, hbefore, hp⟩ := exists_first_refusal hnone
    exact .inr ⟨before, p, later, e, rfl, hbefore, hp, concat_head_of_some hbefore hp⟩

end Schema

/-! ### Items in an output -/

namespace ItemWriter

variable {defs : Defs}

theorem put_eq (w : ItemWriter) (schema : Schema) (v : Value) :
    w.put defs schema v =
      ((schema.written defs v).toExcept.map fun _ => (),
        ⟨w.output ++ (schema.written defs v).bytes⟩) :=
  rfl

theorem putAll_eq (w : ItemWriter) (items : List (Schema × Value)) :
    w.putAll defs items =
      (items.map fun item => (put defs {} item.1 item.2).1,
        ⟨w.output ++ items.flatMap fun item => (put defs {} item.1 item.2).2.output⟩) := by
  induction items generalizing w with
  | nil => simp [putAll]
  | cons item items ih =>
    obtain ⟨schema, v⟩ := item
    simp [putAll, put_eq, ih]

theorem four_dvd_put {w : ItemWriter} (h : 4 ∣ w.output.length) (schema : Schema) (v : Value) :
    4 ∣ (w.put defs schema v).2.output.length := by
  have hitem : 4 ∣ (schema.written defs v).bytes.length := Schema.isAligned_write _ v
  rw [put_eq, List.length_append]
  exact Nat.dvd_add h hitem

theorem four_dvd_putAll {w : ItemWriter} (h : 4 ∣ w.output.length)
    (items : List (Schema × Value)) : 4 ∣ (w.putAll defs items).2.output.length := by
  induction items generalizing w with
  | nil => exact h
  | cons item items ih => exact ih (four_dvd_put h item.1 item.2)

/-- **The output only grows, word by word, by what each item is on its own.**  Whatever is there
already, an item appends the same bytes with the same outcome, and they fill their last word also
where it fails.  With a value of its schema it fails exactly if one of the places cannot be written:
a container whose length is not known, a 128-bit integer, or a text, a byte string or a sequence that
is too long; and what it has appended then is what the places ahead of the first such place put.  So
a stream of items, some of which may fail, is the bytes of one after the other. -/
theorem put_appends (defs : Defs) :
    (∀ (schema : Schema) (v : Value), ∃ result bs,
      (∀ w : ItemWriter, w.put defs schema v = (result, ⟨w.output ++ bs⟩)) ∧ 4 ∣ bs.length ∧
      (schema.Fits defs v → ∃ places,
        (∀ passed, Schema.Passes defs [(schema, v)] passed ↔ passed = places) ∧
        (result ≠ .ok () ↔ ∃ p ∈ places, p.1.refusal? p.2 ≠ none) ∧
        (result = .ok () → bs = Schema.ownBytes places) ∧
        (result ≠ .ok () → ∃ before p later e, places = before ++ p :: later ∧
          (∀ q ∈ before, q.1.refusal? q.2 = none) ∧ p.1.refusal? p.2 = some e ∧
            result = .error e ∧ bs = Schema.ownBytes before))) ∧
    ∀ (items : List (Schema × Value)) (w : ItemWriter),
      w.putAll defs items =
        (items.map fun item => (put defs {} item.1 item.2).1,
          ⟨w.output ++ items.flatMap fun item => (put defs {} item.1 item.2).2.output⟩) ∧
      (4 ∣ w.output.length → 4 ∣ (w.putAll defs items).2.output.length) := by
  refine ⟨fun schema v => ?_, fun items w => ⟨putAll_eq w items, fun h => four_dvd_putAll h items⟩⟩
  refine ⟨(schema.written defs v).toExcept.map fun _ => (), (schema.written defs v).bytes,
    fun w => put_eq w schema v, Schema.isAligned_write _ v, fun hfits => ?_⟩
  obtain ⟨places, hplaces⟩ := hfits.exists_passes
  refine ⟨places, fun passed => ⟨fun h => h.unique hplaces, fun h => h ▸ hplaces⟩, ?_⟩
  -- Either no place is refused, or there is a first one that is.
  rcases hfits.written_cases hplaces with
    ⟨hnone, hwritten⟩ | ⟨before, p, later, e, hsplit, hbefore, hp, hwritten⟩
  · have hok : (schema.written defs v).toExcept.map (fun _ => ()) = .ok () := by
      rw [hwritten]
      rfl
    have hbytes : (schema.written defs v).bytes = Schema.ownBytes places := by
      rw [hwritten]
      rfl
    refine ⟨⟨fun h => absurd hok h, ?_⟩, fun _ => hbytes, fun h => absurd hok h⟩
    rintro ⟨p, hp, hrefusal⟩
    exact absurd (hnone p hp) hrefusal
  · have herror : (schema.written defs v).toExcept.map (fun _ => ()) = .error e := by
      rw [hwritten]
      rfl
    have hbytes : (schema.written defs v).bytes = Schema.ownBytes before := by rw [hwritten]
    have hmem : p ∈ places := by
      rw [hsplit]
      exact List.mem_append_right before List.mem_cons_self
    rw [herror]
    refine ⟨⟨fun _ => ⟨p, hmem, by rw [hp]; nofun⟩, fun _ => nofun⟩, nofun, fun _ => ?_⟩
    exact ⟨before, p, later, e, hsplit, hbefore, hp, rfl, hbytes⟩

/-- A text, an option with a counter and a 128-bit integer in it, where the item ends, and a truth
value that is not reached; behind it stands another item. -/
theorem put_appends_wideInt :
    let pair : Schema := .record [.int .u32, .wideInt true]
    let schema : Schema := .record [.string, .option pair, .bool]
    let counted : Value := .list [.int 7, .int (-1)]
    let v : Value := .list [.string "a", .present counted, .bool true]
    let bs : Bytes := [0, 0, 0, 1, 97, 0, 0, 0, 0, 0, 0, 1, 0, 0, 0, 7]
    (∀ w : ItemWriter, w.put [] schema v = (.error (.wideInt true), ⟨w.output ++ bs⟩)) ∧
      (∃ before p later, [(schema, v), (.string, .string "a"), (.option pair, .present counted),
          (pair, counted), (.int .u32, .int 7), (.wideInt true, .int (-1)), (.bool, .bool true)] =
            before ++ p :: later ∧
        p.1.refusal? p.2 = some (.wideInt true) ∧ bs = Schema.ownBytes before) ∧
      putAll [] {} [(schema, v), (.bool, .bool true)] =
        ([.error (.wideInt true), .ok ()], ⟨bs ++ [0, 0, 0, 1]⟩) := by
  intro pair schema counted v bs
  have hitem : put [] {} schema v = (.error (.wideInt true), ⟨bs⟩) := by rfl
  have hflag : put [] {} .bool (.bool true) = (.ok (), ⟨[0, 0, 0, 1]⟩) := by rfl
  obtain ⟨hone, hall⟩ := put_appends []
  obtain ⟨result, appended, hput, -, hfits⟩ := hone schema v
  obtain ⟨rfl, houtput⟩ := Prod.mk.inj (hitem.symm.trans (hput {}))
  obtain rfl := ItemWriter.mk.inj houtput
  obtain ⟨places, hplaces, -, -, hfirst⟩ := hfits ⟨5, by decide +kernel⟩
  refine ⟨hput, ?_, ?_⟩
  · obtain ⟨before, p, later, e, hsplit, -, hrefusal, he, hbytes⟩ := hfirst (by simp)
    obtain rfl := Except.error.inj he
    refine ⟨before, p, later, ?_, hrefusal, hbytes⟩
    rw [← hsplit, ← hplaces]
    exact .next rfl (.next rfl (.next rfl (.next rfl (.next rfl (.next rfl (.next rfl .done))))))
  · rw [(hall _ _).1]
    simp only [List.map_cons, List.map_nil, List.flatMap_cons, List.flatMap_nil, hitem, hflag]
    rfl

end ItemWriter

end CallWire
