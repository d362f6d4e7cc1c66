import CallWire.Proofs.Codec.Places
import CallWire.Proofs.Codec.Reading

/-!
# CallWire.Proofs.Codec.Depth — the depth allowed for is enough

A value that fits its schema is a finite tree of places, and the depth that writing is allowed goes
to the end of each of its branches: what stands inside a value is less high, and only references are
followed without going down.  So the depth does not show in what is written, whether that fails or
not.  Reading, which undoes writing at every depth, does so at the computed ones.
-/

namespace CallWire

namespace Written

variable {ι : Type}

theorem exists_ok_of_concat {l : List ι} {w : ι → Written} {bs : Bytes}
    (h : concat (l.map w) = ok bs) {x : ι} (hx : x ∈ l) : ∃ b, w x = ok b := by
  induction l generalizing bs with
  | nil => cases hx
  | cons y l ih =>
    rw [List.map_cons, concat_cons, andThen_eq_ok] at h
    obtain ⟨a, b, ha, hb, -⟩ := h
    rcases List.mem_cons.mp hx with rfl | hx
    · exact ⟨a, ha⟩
    · exact ih hb hx

end Written

namespace Schema

variable {defs : Defs} {schema : Schema} {v : Value} {bs : Bytes} {d m n : Nat}

/-! ### Values that fit -/

/-- The value has the schema's form, with at most `n` nested calls. -/
def fitsWithin (defs : Defs) : (n : Nat) → Schema → Value → Bool
  | 0, _, _ => false
  | n + 1, schema, v =>
    match schema.parts? defs v with
    | some inside => inside.all fun p => fitsWithin defs n p.1 p.2
    | none => false

/-- The value has the schema's form. -/
def Fits (defs : Defs) (schema : Schema) (v : Value) : Prop := ∃ n, schema.fitsWithin defs n v

theorem fitsWithin_succ : schema.fitsWithin defs (n + 1) v ↔
    ∃ inside, schema.parts? defs v = some inside ∧ ∀ p ∈ inside, p.1.fitsWithin defs n p.2 := by
  rw [fitsWithin]
  cases schema.parts? defs v <;> simp

theorem Fits.inside (h : schema.Fits defs v) :
    ∃ inside, schema.parts? defs v = some inside ∧ ∀ p ∈ inside, p.1.Fits defs p.2 := by
  obtain ⟨_ | n, hn⟩ := h
  · cases hn
  · obtain ⟨inside, hinside, hfits⟩ := fitsWithin_succ.mp hn
    exact ⟨inside, hinside, fun p hp => ⟨n, hfits p hp⟩⟩

/-! ### The depth that writing takes -/

/-- `write` descends by the height of the value. -/
theorem descent_fits (defs : Defs) :
    Descent defs Value.height fun v n schema => schema.fitsWithin defs n v where
  zero := nofun
  step {v schema m n} h hinner := by
    obtain ⟨inside, hinside, hfits⟩ := fitsWithin_succ.mp h
    refine fitsWithin_succ.mpr ⟨inside, hinside, fun p hp => ?_⟩
    obtain ⟨henters, hheight⟩ := mem_parts hinside hp
    exact hinner p.2 p.1 henters hheight (hfits p hp)

theorem Fits.fitsWithin_writeDepth (h : schema.Fits defs v) :
    schema.fitsWithin defs (schema.writeDepth defs v) v := by
  obtain ⟨n, hn⟩ := h
  exact (descent_fits defs).ends_span hn

theorem write_eq_write (hm : schema.fitsWithin defs m v) (hn : schema.fitsWithin defs n v) :
    schema.write defs m v = schema.write defs n v := by
  induction m generalizing n schema v with
  | zero => cases hm
  | succ m ih =>
    cases n with
    | zero => cases hn
    | succ n =>
      obtain ⟨inside, hinside, hfitsm⟩ := fitsWithin_succ.mp hm
      obtain ⟨_, hinside', hfitsn⟩ := fitsWithin_succ.mp hn
      obtain rfl := Option.some.inj (hinside.symm.trans hinside')
      rw [write_of_parts m hinside, write_of_parts n hinside]
      have hsame : inside.map (fun p => p.1.write defs m p.2) =
          inside.map fun p => p.1.write defs n p.2 :=
        List.map_congr_left fun p hp => ih (hfitsm p hp) (hfitsn p hp)
      rw [hsame]

theorem written_eq_write (h : schema.fitsWithin defs d v) :
    schema.written defs v = schema.write defs d v :=
  write_eq_write (Fits.fitsWithin_writeDepth ⟨d, h⟩) h

/-- **A value that fits is written as its head, and then what stands inside.** -/
theorem Fits.written (h : schema.Fits defs v) {inside : List (Schema × Value)}
    (hinside : schema.parts? defs v = some inside) :
    schema.written defs v =
      (schema.head v).andThen (.concat (inside.map fun p => p.1.written defs p.2)) := by
  obtain ⟨_ | n, hn⟩ := h
  · cases hn
  · obtain ⟨_, hinside', hfits⟩ := fitsWithin_succ.mp hn
    obtain rfl := Option.some.inj (hinside.symm.trans hinside')
    rw [written_eq_write hn, write_of_parts n hinside]
    have hsame : inside.map (fun p => p.1.write defs n p.2) =
        inside.map fun p => p.1.written defs p.2 :=
      List.map_congr_left fun p hp => (written_eq_write (hfits p hp)).symm
    rw [hsame]

theorem fitsWithin_of_write (h : schema.write defs d v = .ok bs) :
    schema.fitsWithin defs d v := by
  induction d generalizing schema v bs with
  | zero => exact absurd h (Written.misfit_ne_ok bs)
  | succ d ih =>
    cases hinside : schema.parts? defs v with
    | none =>
      obtain ⟨e, he⟩ := write_of_no_parts d hinside
      rw [he] at h
      exact absurd h (Written.fail_ne_ok e bs)
    | some inside =>
      rw [write_of_parts d hinside, Written.andThen_eq_ok] at h
      obtain ⟨a, b, -, hb, -⟩ := h
      refine fitsWithin_succ.mpr ⟨inside, hinside, fun p hp => ?_⟩
      obtain ⟨c, hc⟩ := Written.exists_ok_of_concat hb hp
      exact ih hc

/-- **What can be written at any depth is written.** -/
theorem written_eq_ok_iff :
    schema.written defs v = .ok bs ↔ ∃ d, schema.write defs d v = .ok bs := by
  refine ⟨fun h => ⟨_, h⟩, ?_⟩
  rintro ⟨d, h⟩
  rw [written_eq_write (fitsWithin_of_write h), h]

/-- **A value is read off the front of the input exactly if the input begins with what is written
for the value.** -/
theorem reading_eq_value_iff (hf : schema.IsFaithful defs) {input rest : Bytes} :
    schema.reading defs input = .value v rest ↔
      ∃ bs, schema.written defs v = .ok bs ∧ bs ++ rest = input := by
  constructor
  · intro h
    obtain ⟨bs, hbs, hinput⟩ := (reads_write _ hf v input rest).mp h
    exact ⟨bs, written_eq_ok_iff.mpr ⟨_, hbs⟩, hinput⟩
  · intro h
    have hread := (reads_write (schema.writeDepth defs v) hf v input rest).mpr h
    rw [reading_eq_read (by rw [hread]; nofun), hread]

end Schema

end CallWire
