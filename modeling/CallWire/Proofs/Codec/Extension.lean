import CallWire.Proofs.Codec.Reads

/-!
# CallWire.Proofs.Codec.Extension — what more input does to a reader

A reader looks at its input from the front and never goes back.  An item that comes off it comes off
whatever else follows, and so does a failure: unless bytes were missing, more of them change
nothing.  Where they were missing the reader says how many it asked for and how many are there, and
as long as those that follow are still too few it fails again at the same place.  This goes from the
parts of an item to the whole.
-/

namespace CallWire

/-- The error is one of too few or too many bytes. -/
def CodecError.isAboutLength : CodecError → Bool
  | truncated _ _ | trailingBytes _ => true
  | _ => false

namespace Reader

variable {α β ι : Type} {r : Reader α} {f : α → Reader β}

/-! ### One item behind another -/

theorem bind_of_value {input mid : Bytes} {a : α} (h : r input = .value a mid) :
    (r >>= f) input = f a mid := by
  show Reader.bind r f input = _
  unfold Reader.bind
  rw [h]

theorem bind_of_failed {input rest : Bytes} {e : CodecError} (h : r input = .failed e rest) :
    (r >>= f) input = .failed e rest := by
  show Reader.bind r f input = _
  unfold Reader.bind
  rw [h]

theorem bind_of_tooDeep {input : Bytes} (h : r input = .tooDeep) :
    (r >>= f) input = .tooDeep := by
  show Reader.bind r f input = _
  unfold Reader.bind
  rw [h]

theorem bind_eq_failed {input rest : Bytes} {e : CodecError}
    (h : (r >>= f) input = .failed e rest) :
    r input = .failed e rest ∨ ∃ a mid, r input = .value a mid ∧ f a mid = .failed e rest := by
  cases hfirst : r input with
  | value a mid =>
    rw [bind_of_value hfirst] at h
    exact .inr ⟨a, mid, rfl, h⟩
  | failed e' rest' =>
    rw [bind_of_failed hfirst] at h
    obtain ⟨rfl, rfl⟩ := Reading.failed.inj h
    exact .inl rfl
  | tooDeep =>
    rw [bind_of_tooDeep hfirst] at h
    cases h

theorem bind_eq_tooDeep {input : Bytes} (h : (r >>= f) input = .tooDeep) :
    r input = .tooDeep ∨ ∃ a mid, r input = .value a mid ∧ f a mid = .tooDeep := by
  cases hfirst : r input with
  | value a mid =>
    rw [bind_of_value hfirst] at h
    exact .inr ⟨a, mid, rfl, h⟩
  | failed e' rest' =>
    rw [bind_of_failed hfirst] at h
    cases h
  | tooDeep => exact .inl rfl

/-! ### Steady readers -/

/-- The reader consumes a prefix of the input, whatever follows.  Where it fails, it does so with
every longer input, unless the input was too short; and it does not report trailing bytes. -/
structure Steady (r : Reader α) : Prop where
  value : ∀ {input a rest}, r input = .value a rest →
    ∃ taken, taken ++ rest = input ∧ ∀ rest', r (taken ++ rest') = .value a rest'
  failed : ∀ {input e rest}, r input = .failed e rest →
    rest <:+ input ∧ ∀ n, e ≠ .trailingBytes n
  final : ∀ {input e rest}, r input = .failed e rest →
    (∀ needed remaining, e ≠ .truncated needed remaining) →
      ∀ more, r (input ++ more) = .failed e (rest ++ more)
  short : ∀ {input needed remaining rest}, r input = .failed (.truncated needed remaining) rest →
    remaining = rest.length ∧ remaining < needed ∧
      ∀ more : Bytes, more.length < needed - remaining →
        r (input ++ more) = .failed (.truncated needed (remaining + more.length)) (rest ++ more)
  tooDeep : ∀ {input}, r input = .tooDeep → ∀ more, r (input ++ more) = .tooDeep

theorem Steady.value_append (h : r.Steady) {input rest : Bytes} {a : α}
    (hvalue : r input = .value a rest) (more : Bytes) :
    r (input ++ more) = .value a (rest ++ more) := by
  obtain ⟨taken, rfl, htaken⟩ := h.value hvalue
  rw [List.append_assoc]
  exact htaken (rest ++ more)

theorem steady_pure (a : α) : (Pure.pure a : Reader α).Steady where
  value {input b rest} h := by
    obtain ⟨rfl, rfl⟩ := pure_eq_value.mp h
    exact ⟨[], rfl, fun rest' => rfl⟩
  failed h := nomatch h
  final h := nomatch h
  short h := nomatch h
  tooDeep h := nomatch h

theorem steady_fail {e : CodecError} (h : e.isAboutLength = false) :
    (fail e : Reader α).Steady where
  value h := nomatch h
  failed {input e' rest} hfail := by
    obtain ⟨rfl, rfl⟩ := Reading.failed.inj hfail
    refine ⟨List.suffix_refl _, ?_⟩
    rintro n rfl
    cases h
  final {input e' rest} hfail _ more := by
    obtain ⟨rfl, rfl⟩ := Reading.failed.inj hfail
    rfl
  short {input needed remaining rest} hfail := by
    obtain ⟨rfl, -⟩ := Reading.failed.inj hfail
    cases h
  tooDeep h := nomatch h

theorem steady_tooDeep : (tooDeep : Reader α).Steady where
  value h := nomatch h
  failed h := nomatch h
  final h := nomatch h
  short h := nomatch h
  tooDeep _ _ := rfl

theorem take_of_lt {n : Nat} {input : Bytes} (h : input.length < n) :
    take n input = .failed (.truncated n input.length) input := by
  have hne : (input.take n).length ≠ n := by
    rw [List.length_take]
    omega
  unfold take
  exact if_neg hne

theorem take_eq_failed {n : Nat} {input rest : Bytes} {e : CodecError}
    (h : take n input = .failed e rest) :
    input.length < n ∧ e = .truncated n input.length ∧ rest = input := by
  by_cases hlt : input.length < n
  · rw [take_of_lt hlt] at h
    obtain ⟨rfl, rfl⟩ := Reading.failed.inj h
    exact ⟨hlt, rfl, rfl⟩
  · have hvalue : take n input = .value (input.take n) (input.drop n) :=
      take_eq_value.mpr ⟨List.length_take_of_le (Nat.not_lt.mp hlt), List.take_append_drop _ _⟩
    rw [hvalue] at h
    cases h

theorem steady_take (n : Nat) : (take n).Steady where
  value {input bs rest} h := by
    obtain ⟨hlength, hinput⟩ := take_eq_value.mp h
    exact ⟨bs, hinput, fun rest' => take_eq_value.mpr ⟨hlength, rfl⟩⟩
  failed {input e rest} h := by
    obtain ⟨-, rfl, rfl⟩ := take_eq_failed h
    exact ⟨List.suffix_refl _, fun _ => nofun⟩
  final {input e rest} h hfinal := absurd (take_eq_failed h).2.1 (hfinal _ _)
  short {input needed remaining rest} h := by
    obtain ⟨hlt, he, rfl⟩ := take_eq_failed h
    obtain ⟨rfl, rfl⟩ := CodecError.truncated.inj he
    refine ⟨rfl, hlt, fun more hmore => ?_⟩
    rw [← List.length_append]
    refine take_of_lt ?_
    rw [List.length_append]
    omega
  tooDeep {input} h := by
    unfold take at h
    dsimp only at h
    split_ifs at h

theorem Steady.bind (hr : r.Steady) (hf : ∀ a, (f a).Steady) : (r >>= f).Steady where
  value {input b rest} h := by
    obtain ⟨a, mid, ha, hb⟩ := bind_eq_value.mp h
    obtain ⟨taken, rfl, hfirst⟩ := hr.value ha
    obtain ⟨taken', rfl, hnext⟩ := (hf a).value hb
    refine ⟨taken ++ taken', List.append_assoc _ _ _, fun rest' => ?_⟩
    -- The first reader stops before what the second takes, so its own extension is `taken' ++
    -- rest'`.
    rw [List.append_assoc, bind_of_value (hfirst (taken' ++ rest'))]
    exact hnext rest'
  failed {input e rest} h := by
    rcases bind_eq_failed h with ha | ⟨a, mid, ha, hb⟩
    · exact hr.failed ha
    · obtain ⟨taken, rfl, -⟩ := hr.value ha
      obtain ⟨hrest, hkind⟩ := (hf a).failed hb
      exact ⟨hrest.trans (List.suffix_append taken mid), hkind⟩
  final {input e rest} h hfinal more := by
    rcases bind_eq_failed h with ha | ⟨a, mid, ha, hb⟩
    · exact bind_of_failed (hr.final ha hfinal more)
    · rw [bind_of_value (hr.value_append ha more)]
      exact (hf a).final hb hfinal more
  short {input needed remaining rest} h := by
    rcases bind_eq_failed h with ha | ⟨a, mid, ha, hb⟩
    · obtain ⟨hremaining, hlt, hfirst⟩ := hr.short ha
      exact ⟨hremaining, hlt, fun more hmore => bind_of_failed (hfirst more hmore)⟩
    · obtain ⟨hremaining, hlt, hnext⟩ := (hf a).short hb
      refine ⟨hremaining, hlt, fun more hmore => ?_⟩
      rw [bind_of_value (hr.value_append ha more)]
      exact hnext more hmore
  tooDeep {input} h more := by
    rcases bind_eq_tooDeep h with ha | ⟨a, mid, ha, hb⟩
    · exact bind_of_tooDeep (hr.tooDeep ha more)
    · rw [bind_of_value (hr.value_append ha more)]
      exact (hf a).tooDeep hb more

theorem steady_word (w : Nat) : (word w).Steady :=
  (steady_take w).bind fun _ => steady_pure _

theorem Steady.times (h : r.Steady) (n : Nat) : (times r n).Steady := by
  induction n with
  | zero => exact steady_pure []
  | succ n ih => exact h.bind fun a => ih.bind fun as => steady_pure (a :: as)

theorem steady_all {l : List ι} {r : ι → Reader α} (h : ∀ x ∈ l, (r x).Steady) :
    (all (l.map r)).Steady := by
  induction l with
  | nil => exact steady_pure []
  | cons x l ih =>
    have hrest := ih fun y hy => h y (List.mem_cons_of_mem x hy)
    exact (h x List.mem_cons_self).bind fun a => hrest.bind fun as => steady_pure (a :: as)

/-! ### The scalars of the format -/

theorem steady_bool : bool.Steady := by
  refine (steady_word 4).bind fun n => ?_
  split
  · exact steady_pure false
  · exact steady_pure true
  · exact steady_fail rfl

theorem steady_char : char.Steady := by
  refine (steady_word 4).bind fun n => ?_
  split_ifs
  · exact steady_pure _
  · exact steady_fail rfl

theorem steady_int (kind : IntKind) : (int kind).Steady := by
  refine (steady_word kind.width).bind fun n => ?_
  dsimp only
  split_ifs
  · exact steady_pure _
  · exact steady_fail rfl

theorem steady_counted : counted.Steady := by
  refine (steady_word 4).bind fun n => (steady_take n).bind fun bs =>
    (steady_take (padding n)).bind fun pad => ?_
  split_ifs
  · exact steady_pure bs
  · exact steady_fail rfl

theorem steady_text : text.Steady := by
  refine steady_counted.bind fun bs => ?_
  split
  · exact steady_pure _
  · exact steady_fail rfl

end Reader

namespace Schema

open Reader

variable {defs : Defs} {schema : Schema}

theorem steady_read (d : Nat) : (schema.read defs d).Steady := by
  -- The cases follow `Schema.read`: what is built from steady readers with `bind` is steady.
  induction d generalizing schema with
  | zero => exact steady_tooDeep
  | succ d ih =>
    cases schema with
    | bool => exact steady_bool.bind fun b => steady_pure _
    | int kind => exact (steady_int kind).bind fun n => steady_pure _
    | wideInt isSigned => exact steady_fail rfl
    | float32 => exact (steady_word 4).bind fun n => steady_pure _
    | float64 => exact (steady_word 8).bind fun n => steady_pure _
    | char => exact steady_char.bind fun c => steady_pure _
    | string => exact steady_text.bind fun s => steady_pure _
    | bytes => exact steady_counted.bind fun bs => steady_pure _
    | unit => exact steady_pure _
    | any => exact steady_fail rfl
    | ignored => exact steady_fail rfl
    | readable => exact steady_bool.bind fun b => steady_pure _
    | option inner =>
      refine (steady_word 4).bind fun n => ?_
      rcases n with _ | _ | n
      · exact steady_pure _
      · exact ih.bind fun v => steady_pure _
      · exact steady_fail rfl
    | seq element => exact (steady_word 4).bind fun n => (ih.times n).bind fun vs => steady_pure _
    | unsized container element =>
      exact (steady_word 4).bind fun n => (ih.times n).bind fun vs => steady_pure _
    | record fields => exact (steady_all fun field _ => ih).bind fun vs => steady_pure _
    | enum variants =>
      refine (steady_word 4).bind fun index => ?_
      cases hs : variants[index]? with
      | none => exact steady_fail rfl
      | some s => exact ih.bind fun v => steady_pure _
    | ref name =>
      simp only [read]
      cases hs : defs.lookup name with
      | none => exact steady_fail rfl
      | some s => exact ih

end Schema

end CallWire
