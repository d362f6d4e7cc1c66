import CallWire.Codec.Stream
import CallWire.Proofs.Codec.Depth

/-!
# CallWire.Proofs.Codec.RoundTrip — values survive the wire, and each in one form only

A value that is written is read back, whatever follows it and whatever was written before it.  And
nothing but what is written for a value is read as that value: there is one byte string for each.
-/

namespace CallWire

/-! ### Whole messages -/

namespace Schema

variable {defs : Defs} {schema : Schema} {v : Value} {bs input : Bytes}

theorem encode_eq_ok_iff : schema.encode defs v = .ok bs ↔ schema.written defs v = .ok bs :=
  Written.toExcept_eq_ok

theorem decode_eq_ok_iff_reading :
    schema.decode defs input = .ok v ↔ schema.reading defs input = .value v [] := by
  unfold decode
  cases schema.reading defs input with
  | value u rest =>
    cases rest with
    | nil => simp [finished, Except.map]
    | cons b rest => simp [finished, Except.map]
  | failed e rest => simp
  | tooDeep => simp

theorem decode_eq_ok_iff (hf : schema.IsFaithful defs) :
    schema.decode defs input = .ok v ↔ schema.encode defs v = .ok input := by
  rw [decode_eq_ok_iff_reading, encode_eq_ok_iff, reading_eq_value_iff hf]
  simp

end Schema

/-! ### Streams of items -/

section Stream

variable {defs : Defs} {schema : Schema} {v : Value} {bs rest : Bytes}

theorem ItemReader.next_of_written (hf : schema.IsFaithful defs)
    (h : schema.written defs v = .ok bs) :
    ItemReader.next defs ⟨bs ++ rest⟩ schema = (.ok v, ⟨rest⟩) := by
  have hr : schema.reading defs (bs ++ rest) = .value v rest :=
    (Schema.reading_eq_value_iff hf).mpr ⟨bs, h, rfl⟩
  simp only [ItemReader.next, hr]

theorem ItemReader.nextAll_of_putAll {items : List (Schema × Value)} {w w' : ItemWriter}
    {results : List (Except CodecError Unit)} (hf : ∀ item ∈ items, item.1.IsFaithful defs)
    (h : w.putAll defs items = (results, w')) (hr : ∀ r ∈ results, r = .ok ()) :
    ∃ bs, w'.output = w.output ++ bs ∧ ∀ rest, ∃ taken,
      ItemReader.nextAll defs ⟨bs ++ rest⟩ (items.map (·.1)) = (taken, ⟨rest⟩) ∧
        taken.map (·.1) = items.map fun item => .ok item.2 := by
  induction items generalizing w results with
  | nil =>
    obtain ⟨-, rfl⟩ := Prod.mk.inj h
    exact ⟨[], by simp, fun rest => ⟨[], rfl, rfl⟩⟩
  | cons item items ih =>
    obtain ⟨schema, v⟩ := item
    obtain ⟨hres, hlast⟩ := Prod.mk.inj h
    subst hres
    have hitem : (schema.written defs v).toExcept.map (fun _ => ()) = .ok () :=
      hr _ List.mem_cons_self
    obtain ⟨b, hb⟩ : ∃ b, schema.written defs v = .ok b := by
      cases he : (schema.written defs v).toExcept with
      | error e =>
        rw [he] at hitem
        cases hitem
      | ok b => exact ⟨b, Written.toExcept_eq_ok.mp he⟩
    obtain ⟨bs, hbs, hread⟩ := ih (fun i hi => hf i (List.mem_cons_of_mem _ hi))
      (Prod.ext rfl hlast) fun r hr' => hr r (List.mem_cons_of_mem _ hr')
    refine ⟨b ++ bs, ?_, fun rest => ?_⟩
    · have hput : (w.put defs schema v).2.output = w.output ++ b := by
        simp [ItemWriter.put, hb]
      rw [← List.append_assoc, ← hput]
      exact hbs
    · obtain ⟨taken, htaken, hvalues⟩ := hread rest
      have hnext : ItemReader.next defs ⟨b ++ (bs ++ rest)⟩ schema = (.ok v, ⟨bs ++ rest⟩) :=
        ItemReader.next_of_written (hf (schema, v) List.mem_cons_self) hb
      refine ⟨(.ok v, (bs ++ rest).length) :: taken, ?_, ?_⟩
      · rw [List.map_cons, ItemReader.nextAll, List.append_assoc]
        simp only [hnext, htaken]
      · rw [List.map_cons, List.map_cons, hvalues]

end Stream

/-! ### Main statements -/

namespace Schema

/-- **Decoding undoes encoding.**  What is written for a value is read as that value with all that
follows left over, so a whole message decodes to what was encoded, and items written one after the
other into one output are read back one after the other, with nothing left. -/
theorem reading_undoes_writing (defs : Defs) :
    (∀ (schema : Schema) (v : Value) (bs : Bytes), schema.IsFaithful defs →
      schema.written defs v = .ok bs →
        (∀ rest, schema.reading defs (bs ++ rest) = .value v rest) ∧
          schema.encode defs v = .ok bs ∧ schema.decode defs bs = .ok v) ∧
    ∀ (items : List (Schema × Value)) (results : List (Except CodecError Unit)) (w : ItemWriter),
      (∀ item ∈ items, item.1.IsFaithful defs) →
      ItemWriter.putAll defs {} items = (results, w) → (∀ r ∈ results, r = .ok ()) →
        ∃ taken last, ItemReader.nextAll defs ⟨w.output⟩ (items.map (·.1)) = (taken, last) ∧
          (taken.map (·.1) = items.map fun item => .ok item.2) ∧ last.finish = .ok () := by
  constructor
  · intro schema v bs hf h
    have henc : schema.encode defs v = .ok bs := encode_eq_ok_iff.mpr h
    exact ⟨fun rest => (reading_eq_value_iff hf).mpr ⟨bs, h, rfl⟩, henc,
      (decode_eq_ok_iff hf).mpr henc⟩
  · intro items results w hf h hr
    obtain ⟨bs, hbs, hread⟩ := ItemReader.nextAll_of_putAll hf h hr
    obtain ⟨taken, htaken, hvalues⟩ := hread []
    refine ⟨taken, ⟨[]⟩, ?_, hvalues, rfl⟩
    rw [hbs, ← htaken]
    simp

/-- A list linked through a definition, alone and with a number behind it. -/
theorem reading_undoes_writing_list :
    let defs : Defs := [("list", .option (.record [.string, .ref "list"]))]
    let value : Value := .present (.list [.string "é", .absent])
    let bs : Bytes := [0, 0, 0, 1, 0, 0, 0, 2, 0xc3, 0xa9, 0, 0, 0, 0, 0, 0]
    (∀ rest, (ref "list").reading defs (bs ++ rest) = .value value rest) ∧
      ∃ taken last, ItemReader.nextAll defs ⟨bs ++ [255, 255, 255, 255]⟩ [ref "list", int .i8] =
        (taken, last) ∧ taken.map (·.1) = [.ok value, .ok (.int (-1))] ∧ last.finish = .ok () := by
  intro defs value bs
  have hlist : (ref "list").IsFaithful defs := isFaithful_of_isPlain (by decide) (by decide)
  have hint : (int .i8).IsFaithful defs := isFaithful_of_isPlain (by decide) (by decide)
  have hbs : (ref "list").written defs value = .ok bs := by decide +kernel
  have hput : ItemWriter.putAll defs {} [(ref "list", value), (int .i8, .int (-1))] =
      ([.ok (), .ok ()], ⟨bs ++ [255, 255, 255, 255]⟩) := by rfl
  obtain ⟨hone, hall⟩ := reading_undoes_writing defs
  refine ⟨(hone _ _ _ hlist hbs).1, hall _ _ _ ?_ hput (by simp)⟩
  intro item hi
  simp only [List.mem_cons, List.not_mem_nil, or_false] at hi
  rcases hi with rfl | rfl
  · exact hlist
  · exact hint

/-- **Only what is written for a value is read as it.**  Whatever was read as a value begins with
what is written for that value and continues with what was left over.  So only encodings are
decoded, and no two different byte strings are decoded to one value. -/
theorem reading_accepts_only_written (defs : Defs) (schema : Schema)
    (hf : schema.IsFaithful defs) :
    (∀ (input : Bytes) (v : Value) (rest : Bytes), schema.reading defs input = .value v rest →
      ∃ bs, schema.written defs v = .ok bs ∧ input = bs ++ rest) ∧
    (∀ (input : Bytes) (v : Value),
      schema.decode defs input = .ok v ↔ schema.encode defs v = .ok input) ∧
    ∀ (input input' : Bytes) (v : Value),
      schema.decode defs input = .ok v → schema.decode defs input' = .ok v → input = input' := by
  refine ⟨fun input v rest h => ?_, fun input v => decode_eq_ok_iff hf, ?_⟩
  · obtain ⟨bs, hbs, hinput⟩ := (reading_eq_value_iff hf).mp h
    exact ⟨bs, hbs, hinput.symm⟩
  · intro input input' v h h'
    -- Both are the one encoding that the writer gives the value.
    have henc : schema.encode defs v = .ok input := (decode_eq_ok_iff hf).mp h
    have henc' : schema.encode defs v = .ok input' := (decode_eq_ok_iff hf).mp h'
    rw [henc] at henc'
    exact Except.ok.inj henc'

/-- One opaque byte, padded, and an absent option, with a byte behind them. -/
theorem reading_accepts_only_written_record :
    let defs : Defs := []
    let schema : Schema := record [bytes, option (int .i8)]
    let input : Bytes := [0, 0, 0, 1, 120, 0, 0, 0, 0, 0, 0, 0, 7]
    let value : Value := .list [.bytes [120], .absent]
    (∃ bs, schema.written defs value = .ok bs ∧ input = bs ++ [7]) ∧
      ∀ input', schema.decode defs input' = .ok value → input' = input.take 12 := by
  intro defs schema input value
  have hf : schema.IsFaithful defs := isFaithful_of_isPlain (by decide) (by decide)
  have hwritten : schema.written defs value = .ok (input.take 12) := by decide +kernel
  have hread : schema.reading defs input = .value value [7] :=
    (reading_eq_value_iff hf).mpr ⟨_, hwritten, rfl⟩
  have hdecode : schema.decode defs (input.take 12) = .ok value :=
    (decode_eq_ok_iff hf).mpr (encode_eq_ok_iff.mpr hwritten)
  obtain ⟨hpart, -, hone⟩ := reading_accepts_only_written defs schema hf
  exact ⟨hpart _ _ _ hread, fun input' h => hone _ _ _ h hdecode⟩

end Schema

end CallWire
