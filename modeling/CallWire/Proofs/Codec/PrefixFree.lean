import CallWire.Proofs.Codec.Reading
import CallWire.Proofs.Codec.RoundTrip

/-!
# CallWire.Proofs.Codec.PrefixFree — no message is the beginning of another

Under any schema, whatever its definitions and also where it is only read, a message that decodes
can neither be cut nor go on: a part of it is too short, and with more behind it those bytes are
left over.  For what a part came to otherwise, the whole would come to as well.
-/

namespace CallWire

/-- The result is the error of a truncated input. -/
def Reading.IsShort {α : Type} (r : Reading α) : Prop :=
  ∃ needed remaining rest, remaining < needed ∧ r = .failed (.truncated needed remaining) rest

namespace Reader

variable {α : Type} {r : Reader α}

theorem Steady.isShort_of_part (h : r.Steady) {part missing : Bytes} {a : α}
    (hvalue : r (part ++ missing) = .value a []) (hmissing : missing ≠ []) : (r part).IsShort := by
  cases hpart : r part with
  | value b rest =>
    rw [h.value_append hpart missing] at hvalue
    have hrest := (Reading.value.inj hvalue).2
    exact absurd (List.append_eq_nil_iff.mp hrest).2 hmissing
  | failed e rest =>
    by_cases hshort : ∃ needed remaining, e = .truncated needed remaining
    · obtain ⟨needed, remaining, rfl⟩ := hshort
      exact ⟨needed, remaining, rest, (h.short hpart).2.1, rfl⟩
    · have hfinal := h.final hpart (fun n m he => hshort ⟨n, m, he⟩) missing
      rw [hfinal] at hvalue
      cases hvalue
  | tooDeep =>
    rw [h.tooDeep hpart missing] at hvalue
    cases hvalue

end Reader

namespace Schema

open Reader

variable {defs : Defs} {schema : Schema}

/-- **A value is read whatever follows it, and no proper prefix of its bytes is enough.** -/
theorem reading_eq_value {v : Value} {input rest : Bytes}
    (h : schema.reading defs input = .value v rest) :
    ∃ bs, bs ++ rest = input ∧ (∀ rest', schema.reading defs (bs ++ rest') = .value v rest') ∧
      ∀ part missing, part ++ missing = bs → missing ≠ [] →
        (schema.reading defs part).IsShort := by
  have hsteady : Reader.Steady (schema.reading defs) := steady_reading
  obtain ⟨bs, hinput, hbs⟩ := hsteady.value h
  refine ⟨bs, hinput, hbs, ?_⟩
  rintro part missing rfl hmissing
  have hwhole := hbs []
  rw [List.append_nil] at hwhole
  exact hsteady.isShort_of_part hwhole hmissing

theorem reading_ne_trailingBytes (input : Bytes) (n : Nat) (rest : Bytes) :
    schema.reading defs input ≠ .failed (.trailingBytes n) rest := by
  intro h
  exact (steady_reading.failed h).2 n rfl

/-! ### Whole messages -/

theorem decode_of_isShort {part : Bytes} (h : (schema.reading defs part).IsShort) :
    ∃ needed remaining, remaining < needed ∧
      schema.decode defs part = .error (.truncated needed remaining) := by
  obtain ⟨needed, remaining, rest, hlt, heq⟩ := h
  refine ⟨needed, remaining, hlt, ?_⟩
  unfold decode
  rw [heq]

theorem decode_of_value {v : Value} {input rest : Bytes}
    (h : schema.reading defs input = .value v rest) (hrest : rest ≠ []) :
    schema.decode defs input = .error (.trailingBytes rest.length) := by
  have hfinished : finished rest = .error (.trailingBytes rest.length) :=
    if_neg (by simpa using hrest)
  simp only [decode, h, hfinished]
  rfl

theorem decode_eq_trailingBytes {input : Bytes} {n : Nat}
    (h : schema.decode defs input = .error (.trailingBytes n)) :
    ∃ v rest, schema.reading defs input = .value v rest ∧ rest ≠ [] ∧ rest.length = n := by
  unfold decode at h
  cases hreading : schema.reading defs input with
  | value v rest =>
    rw [hreading] at h
    cases rest with
    | nil => cases h
    | cons b rest =>
      refine ⟨v, b :: rest, rfl, nofun, ?_⟩
      exact CodecError.trailingBytes.inj (Except.error.inj h)
  | failed e rest =>
    rw [hreading] at h
    obtain rfl : e = .trailingBytes n := Except.error.inj h
    exact absurd hreading (reading_ne_trailingBytes input n rest)
  | tooDeep =>
    rw [hreading] at h
    cases h

theorem decode_part_of_decode {input : Bytes} {v : Value} (h : schema.decode defs input = .ok v)
    (part missing : Bytes) (happend : part ++ missing = input) (hmissing : missing ≠ []) :
    ∃ needed remaining, remaining < needed ∧
      schema.decode defs part = .error (.truncated needed remaining) := by
  obtain ⟨bs, hbs, -, hparts⟩ := reading_eq_value (decode_eq_ok_iff_reading.mp h)
  rw [List.append_nil] at hbs
  exact decode_of_isShort (hparts part missing (happend.trans hbs.symm) hmissing)

theorem decode_append_of_decode {input : Bytes} {v : Value} (h : schema.decode defs input = .ok v)
    (rest : Bytes) (hrest : rest ≠ []) :
    schema.decode defs (input ++ rest) = .error (.trailingBytes rest.length) := by
  obtain ⟨bs, hbs, hwhole, -⟩ := reading_eq_value (decode_eq_ok_iff_reading.mp h)
  rw [List.append_nil] at hbs
  exact decode_of_value (hbs ▸ hwhole rest) hrest

theorem eq_of_isPrefix_of_decode {part input : Bytes} {v v' : Value} (hpart : part <+: input)
    (h : schema.decode defs part = .ok v) (h' : schema.decode defs input = .ok v') :
    part = input := by
  obtain ⟨missing, happend⟩ := hpart
  by_contra hne
  have hmissing : missing ≠ [] := by
    rintro rfl
    exact hne ((List.append_nil part).symm.trans happend)
  obtain ⟨needed, remaining, -, herror⟩ := decode_part_of_decode h' part missing happend hmissing
  rw [h] at herror
  cases herror

theorem decode_eq_trailingBytes_iff {input : Bytes} {n : Nat} :
    schema.decode defs input = .error (.trailingBytes n) ↔ 0 < n ∧ n ≤ input.length ∧
      ∃ v, schema.decode defs (input.take (input.length - n)) = .ok v := by
  constructor
  · intro h
    obtain ⟨v, rest, hreading, hrest, rfl⟩ := decode_eq_trailingBytes h
    obtain ⟨bs, rfl, hwhole, -⟩ := reading_eq_value hreading
    have hbs := hwhole []
    rw [List.append_nil] at hbs
    refine ⟨List.length_pos_iff.mpr hrest, by simp, v, ?_⟩
    rw [List.length_append, Nat.add_sub_cancel, List.take_left]
    exact decode_eq_ok_iff_reading.mpr hbs
  · rintro ⟨hpos, hle, v, h⟩
    have hlength : (input.drop (input.length - n)).length = n := by
      rw [List.length_drop]
      omega
    have hrest : input.drop (input.length - n) ≠ [] := by
      rw [← List.length_pos_iff, hlength]
      exact hpos
    have hleft := decode_append_of_decode h _ hrest
    rwa [List.take_append_drop, hlength] at hleft

/-- **The format is prefix-free.**  A part of a message that decodes is truncated, and with more
behind it those bytes are left over.  So of the beginnings of one byte string at most one decodes,
and a number of bytes are left over exactly if the string decodes without them. -/
theorem decode_prefix_free (defs : Defs) (schema : Schema) :
    (∀ (input : Bytes) (v : Value), schema.decode defs input = .ok v →
      (∀ part missing, part ++ missing = input → missing ≠ [] → ∃ needed remaining,
        remaining < needed ∧ schema.decode defs part = .error (.truncated needed remaining)) ∧
      ∀ rest, rest ≠ [] →
        schema.decode defs (input ++ rest) = .error (.trailingBytes rest.length)) ∧
    (∀ (input part part' : Bytes) (v v' : Value), part <+: input → part' <+: input →
      schema.decode defs part = .ok v → schema.decode defs part' = .ok v' → part = part') ∧
    ∀ (input : Bytes) (n : Nat), schema.decode defs input = .error (.trailingBytes n) ↔
      0 < n ∧ n ≤ input.length ∧ ∃ v, schema.decode defs (input.take (input.length - n)) = .ok v := by
  refine ⟨fun input v h => ⟨decode_part_of_decode h, decode_append_of_decode h⟩, ?_,
    fun input n => decode_eq_trailingBytes_iff⟩
  intro input part part' v v' hpart hpart' h h'
  rcases List.prefix_or_prefix_of_prefix hpart hpart' with hle | hle
  · exact eq_of_isPrefix_of_decode hle h h'
  · exact (eq_of_isPrefix_of_decode hle h' h).symm

/-- A list linked through a definition, a sequence whose writer did not know its length, and a flag
that only the reader knows to be false. -/
theorem decode_prefix_free_list :
    let defs : Defs := [("list", .option (.record [.bytes, .ref "list"]))]
    let schema : Schema := record [.ref "list", .unsized .sequence (.int .u8), .readable]
    let input : Bytes := [0, 0, 0, 1, 0, 0, 0, 1, 120, 0, 0, 0, 0, 0, 0, 0,
      0, 0, 0, 2, 0, 0, 0, 7, 0, 0, 0, 9, 0, 0, 0, 1]
    (∃ v, schema.decode defs input = .ok v) ∧
      (∀ part missing, part ++ missing = input → missing ≠ [] → ∃ needed remaining,
        remaining < needed ∧ schema.decode defs part = .error (.truncated needed remaining)) ∧
      schema.decode defs (input ++ [0]) = .error (.trailingBytes 1) := by
  intro defs schema input
  have hsome : (schema.decode defs input).toOption.isSome = true := by decide +kernel
  obtain ⟨hone, -, -⟩ := decode_prefix_free defs schema
  cases h : schema.decode defs input with
  | error e =>
    rw [h] at hsome
    cases hsome
  | ok v =>
    obtain ⟨hparts, hmore⟩ := hone input v h
    exact ⟨⟨v, rfl⟩, hparts, hmore [0] nofun⟩

end Schema

end CallWire
