import CallWire.Proofs.Codec.Reads
import Mathlib.Logic.Relation

/-!
# CallWire.Proofs.Codec.TwoWay — reading a schema undoes writing it

At any depth allowed for, a schema is read exactly as it is written, if this is so of every form
that can come up under it.  Both directions come from one equivalence, by induction on the depth
with one case for each form.
-/

namespace CallWire.Schema

variable {defs : Defs} {schema inner : Schema}

/-! ### The forms that go both ways -/

/-- The schema is read as it is written.  A container without a length is only read, and `readable`
is read as a pair. -/
def isTwoWay : Schema → Bool
  | unsized _ _ | readable => false
  | _ => true

/-- The second schema is directly under the first. -/
inductive Enters (defs : Defs) : Schema → Schema → Prop
  | option {inner : Schema} : Enters defs (option inner) inner
  | seq {element : Schema} : Enters defs (seq element) element
  | unsized {container : Container} {element : Schema} :
      Enters defs (unsized container element) element
  | field {fields : List Schema} {field : Schema} (h : field ∈ fields) :
      Enters defs (record fields) field
  | variant {variants : List Schema} {variant : Schema} (h : variant ∈ variants) :
      Enters defs (enum variants) variant
  | ref {name : String} {schema : Schema} (h : defs.lookup name = some schema) :
      Enters defs (ref name) schema

/-- Every schema reachable from this one, references included, is read as it is written. -/
def IsFaithful (defs : Defs) (schema : Schema) : Prop :=
  ∀ node, Relation.ReflTransGen (Enters defs) schema node → node.isTwoWay

theorem IsFaithful.isTwoWay (h : schema.IsFaithful defs) : schema.isTwoWay :=
  h schema .refl

theorem IsFaithful.enter (h : schema.IsFaithful defs) (hi : Enters defs schema inner) :
    inner.IsFaithful defs :=
  fun node hn => h node (.head hi hn)

mutual
/-- The schema, its references apart, is made of such that are read as they are written. -/
def isPlain : Schema → Bool
  | unsized _ _ | readable => false
  | option s | seq s => s.isPlain
  | record ss | enum ss => arePlain ss
  | _ => true

def arePlain : List Schema → Bool
  | [] => true
  | s :: ss => s.isPlain && arePlain ss
end

theorem isPlain_of_mem {schemas : List Schema} (h : arePlain schemas) (hs : schema ∈ schemas) :
    schema.isPlain := by
  induction schemas with
  | nil => cases hs
  | cons s ss ih =>
    rw [arePlain, Bool.and_eq_true] at h
    rcases List.mem_cons.mp hs with rfl | hs
    · exact h.1
    · exact ih h.2 hs

theorem mem_of_lookup {name : String} (h : defs.lookup name = some schema) :
    (name, schema) ∈ defs := by
  induction defs with
  | nil => cases h
  | cons d defs ih =>
    rw [List.lookup_cons] at h
    split at h
    · next hn =>
      rw [Option.some.injEq] at h
      rw [← h, eq_of_beq hn]
      exact List.mem_cons_self
    · exact List.mem_cons_of_mem _ (ih h)

theorem isFaithful_of_isPlain (hs : schema.isPlain) (hd : ∀ d ∈ defs, d.2.isPlain) :
    schema.IsFaithful defs := by
  intro node hn
  have hnode : node.isPlain := by
    induction hn with
    | refl => exact hs
    | tail _ hi ih =>
      cases hi with
      | option | seq => simpa [isPlain] using ih
      | unsized => simp [isPlain] at ih
      | field h | variant h => exact isPlain_of_mem (by simpa [isPlain] using ih) h
      | ref h => exact hd _ (mem_of_lookup h)
  cases node <;> simp_all [isPlain, Schema.isTwoWay]

end CallWire.Schema

namespace CallWire.Reader

variable {α β : Type}

theorem Reads.wrap {r : Reader α} {w : α → Written} (hr : r.Reads w) {f : α → β}
    {w' : β → Written} (hw : ∀ b bs, w' b = .ok bs ↔ ∃ a, f a = b ∧ w a = .ok bs) :
    (r >>= fun a => Pure.pure (f a)).Reads w' := by
  intro b input rest
  simp only [bind_eq_value, pure_eq_value, hw]
  constructor
  · rintro ⟨a, _, ha, rfl, rfl⟩
    obtain ⟨bs, hbs, rfl⟩ := (hr _ _ _).mp ha
    exact ⟨bs, ⟨a, rfl, hbs⟩, rfl⟩
  · rintro ⟨bs, ⟨a, rfl, hbs⟩, rfl⟩
    exact ⟨a, rest, (hr _ _ _).mpr ⟨bs, hbs, rfl⟩, rfl, rfl⟩

end CallWire.Reader

namespace CallWire.Schema

open Reader

variable {defs : Defs} {schema : Schema}

/-! ### One case for each form -/

theorem reads_write_bool (d : Nat) : (bool.read defs (d + 1)).Reads (bool.write defs (d + 1)) := by
  apply reads_bool.wrap
  intro v bs
  cases v <;> simp [write]

theorem reads_write_int (d : Nat) (kind : IntKind) :
    ((int kind).read defs (d + 1)).Reads ((int kind).write defs (d + 1)) := by
  apply (reads_int kind).wrap
  intro v bs
  cases v <;> simp [write]

theorem reads_write_char (d : Nat) : (char.read defs (d + 1)).Reads (char.write defs (d + 1)) := by
  apply reads_char.wrap
  intro v bs
  cases v <;> simp [write]

theorem reads_write_string (d : Nat) :
    (string.read defs (d + 1)).Reads (string.write defs (d + 1)) := by
  apply reads_text.wrap
  intro v bs
  cases v <;> simp [write]

theorem reads_write_bytes (d : Nat) :
    (bytes.read defs (d + 1)).Reads (bytes.write defs (d + 1)) := by
  apply reads_counted.wrap
  intro v bs
  cases v <;> simp [write]

theorem reads_write_unit (d : Nat) : (unit.read defs (d + 1)).Reads (unit.write defs (d + 1)) := by
  intro v input rest
  simp only [read, pure_eq_value]
  cases v <;> simp [write, Written.ok_inj, eq_comm]

theorem reads_write_float32 (d : Nat) :
    (float32.read defs (d + 1)).Reads (float32.write defs (d + 1)) := by
  intro v input rest
  simp only [read, bind_eq_value, word_eq_value, pure_eq_value]
  constructor
  · rintro ⟨n, _, ⟨hn, rfl⟩, rfl, rfl⟩
    refine ⟨_, rfl, ?_⟩
    rw [UInt32.toNat_ofNat_of_lt' hn]
  · rintro ⟨bs, h, rfl⟩
    cases v with
    | float32 bits =>
      rw [write, Written.ok_inj] at h
      subst h
      exact ⟨bits.toNat, rest, ⟨bits.toNat_lt, rfl⟩, by simp, rfl⟩
    | _ => simp [write] at h

theorem reads_write_float64 (d : Nat) :
    (float64.read defs (d + 1)).Reads (float64.write defs (d + 1)) := by
  intro v input rest
  simp only [read, bind_eq_value, word_eq_value, pure_eq_value]
  constructor
  · rintro ⟨n, _, ⟨hn, rfl⟩, rfl, rfl⟩
    refine ⟨_, rfl, ?_⟩
    rw [UInt64.toNat_ofNat_of_lt' hn]
  · rintro ⟨bs, h, rfl⟩
    cases v with
    | float64 bits =>
      rw [write, Written.ok_inj] at h
      subst h
      exact ⟨bits.toNat, rest, ⟨bits.toNat_lt, rfl⟩, by simp, rfl⟩
    | _ => simp [write] at h

section Step

variable {d : Nat} (ih : ∀ {s : Schema}, s.IsFaithful defs → (s.read defs d).Reads (s.write defs d))
include ih

theorem reads_write_option {inner : Schema} (h : inner.IsFaithful defs) :
    ((option inner).read defs (d + 1)).Reads ((option inner).write defs (d + 1)) := by
  intro v input rest
  simp only [read, bind_eq_value, word_eq_value]
  constructor
  · rintro ⟨n, mid, ⟨hn, rfl⟩, hv⟩
    split at hv
    · obtain ⟨rfl, rfl⟩ := pure_eq_value.mp hv
      exact ⟨_, rfl, rfl⟩
    · simp only [bind_eq_value, pure_eq_value] at hv
      obtain ⟨u, _, hu, rfl, rfl⟩ := hv
      obtain ⟨bs, hbs, rfl⟩ := (ih h _ _ _).mp hu
      refine ⟨Bytes.ofNat 4 1 ++ bs, ?_, List.append_assoc _ _ _⟩
      rw [write, hbs]
      rfl
    · exact absurd hv fail_ne_value
  · rintro ⟨bs, hbs, rfl⟩
    cases v with
    | absent =>
      rw [write, Written.word, Written.ok_inj] at hbs
      subst hbs
      exact ⟨0, rest, ⟨by decide, rfl⟩, by simp⟩
    | present u =>
      rw [write, Written.word, Written.andThen_eq_ok] at hbs
      obtain ⟨a, b, ha, hb, rfl⟩ := hbs
      rw [Written.ok_inj] at ha
      subst ha
      refine ⟨1, b ++ rest, ⟨by decide, (List.append_assoc _ _ _).symm⟩, ?_⟩
      simp only [bind_eq_value, pure_eq_value]
      exact ⟨u, rest, (ih h _ _ _).mpr ⟨b, hb, rfl⟩, rfl, rfl⟩
    | _ => simp [write] at hbs

theorem reads_write_seq {element : Schema} (h : element.IsFaithful defs) :
    ((seq element).read defs (d + 1)).Reads ((seq element).write defs (d + 1)) := by
  intro v input rest
  simp only [read, bind_eq_value, word_eq_value, pure_eq_value, times_eq_value (ih h)]
  constructor
  · rintro ⟨_, _, ⟨hn, rfl⟩, vs, _, ⟨rfl, bs, hbs, rfl⟩, rfl, rfl⟩
    refine ⟨_ ++ bs, ?_, List.append_assoc _ _ _⟩
    rw [write, hbs, Written.andThen_eq_ok]
    exact ⟨_, _, Written.length_eq_ok.mpr ⟨hn, rfl⟩, rfl, rfl⟩
  · rintro ⟨bs, hbs, rfl⟩
    cases v with
    | list vs =>
      rw [write, Written.andThen_eq_ok] at hbs
      obtain ⟨a, b, ha, hb, rfl⟩ := hbs
      obtain ⟨hn, rfl⟩ := Written.length_eq_ok.mp ha
      exact ⟨vs.length, b ++ rest, ⟨hn, (List.append_assoc _ _ _).symm⟩, vs, rest,
        ⟨rfl, b, hb, rfl⟩, rfl, rfl⟩
    | _ => simp [write] at hbs

theorem reads_write_record {fields : List Schema} (h : ∀ f ∈ fields, f.IsFaithful defs) :
    ((record fields).read defs (d + 1)).Reads ((record fields).write defs (d + 1)) := by
  intro v input rest
  simp only [read, bind_eq_value, pure_eq_value, all_eq_value fun f hf => ih (h f hf)]
  constructor
  · rintro ⟨vs, _, ⟨hlen, bs, hbs, rfl⟩, rfl, rfl⟩
    refine ⟨bs, ?_, rfl⟩
    rw [write, if_pos hlen, hbs]
  · rintro ⟨bs, hbs, rfl⟩
    cases v with
    | list vs =>
      rw [write] at hbs
      split_ifs at hbs with hlen
      · exact ⟨vs, rest, ⟨hlen, bs, hbs, rfl⟩, rfl, rfl⟩
      · exact absurd hbs (Written.misfit_ne_ok bs)
    | _ => simp [write] at hbs

theorem reads_write_enum {variants : List Schema} (h : ∀ s ∈ variants, s.IsFaithful defs) :
    ((enum variants).read defs (d + 1)).Reads ((enum variants).write defs (d + 1)) := by
  intro v input rest
  simp only [read, bind_eq_value, word_eq_value]
  constructor
  · rintro ⟨i, mid, ⟨hi, rfl⟩, hv⟩
    cases hs : variants[i]? with
    | none =>
      rw [hs] at hv
      exact absurd hv fail_ne_value
    | some s =>
      rw [hs] at hv
      simp only [bind_eq_value, pure_eq_value] at hv
      obtain ⟨u, _, hu, rfl, rfl⟩ := hv
      obtain ⟨bs, hbs, rfl⟩ := (ih (h s (List.mem_of_getElem? hs)) _ _ _).mp hu
      refine ⟨Bytes.ofNat 4 i ++ bs, ?_, List.append_assoc _ _ _⟩
      have hlt : i < UInt32.size := hi
      rw [write, hs]
      dsimp only
      rw [if_pos hlt, hbs]
      rfl
  · rintro ⟨bs, hbs, rfl⟩
    -- Only a variant is written by an enum; its index fixes the schema of the body on both sides.
    cases v with
    | «variant» i u =>
      rw [write] at hbs
      cases hs : variants[i]? with
      | none =>
        rw [hs] at hbs
        exact absurd hbs (Written.misfit_ne_ok bs)
      | some s =>
        rw [hs] at hbs
        dsimp only at hbs
        split_ifs at hbs with hi
        · rw [Written.word, Written.andThen_eq_ok] at hbs
          obtain ⟨a, b, ha, hb, rfl⟩ := hbs
          rw [Written.ok_inj] at ha
          subst ha
          refine ⟨i, b ++ rest, ⟨hi, (List.append_assoc _ _ _).symm⟩, ?_⟩
          rw [hs]
          simp only [bind_eq_value, pure_eq_value]
          exact ⟨u, rest, (ih (h s (List.mem_of_getElem? hs)) _ _ _).mpr ⟨b, hb, rfl⟩, rfl, rfl⟩
        · exact absurd hbs (Written.misfit_ne_ok bs)
    | _ => simp [write] at hbs

theorem reads_write_ref {name : String}
    (h : ∀ s, defs.lookup name = some s → s.IsFaithful defs) :
    ((ref name).read defs (d + 1)).Reads ((ref name).write defs (d + 1)) := by
  intro v input rest
  simp only [read, write]
  cases hs : defs.lookup name with
  | none => simp
  | some s => exact ih (h s hs) v input rest

end Step

theorem reads_write (d : Nat) (h : schema.IsFaithful defs) :
    (schema.read defs d).Reads (schema.write defs d) := by
  induction d generalizing schema with
  | zero =>
    intro v input rest
    simp [read, write, tooDeep]
  | succ d ih =>
    cases schema with
    | bool => exact reads_write_bool d
    | int kind => exact reads_write_int d kind
    | float32 => exact reads_write_float32 d
    | float64 => exact reads_write_float64 d
    | char => exact reads_write_char d
    | string => exact reads_write_string d
    | bytes => exact reads_write_bytes d
    | unit => exact reads_write_unit d
    | option inner => exact reads_write_option ih (h.enter .option)
    | seq element => exact reads_write_seq ih (h.enter .seq)
    | record fields => exact reads_write_record ih fun f hf => h.enter (.field hf)
    | enum variants => exact reads_write_enum ih fun s hs => h.enter (.variant hs)
    | ref name => exact reads_write_ref ih fun s hs => h.enter (.ref hs)
    | unsized | readable => exact absurd h.isTwoWay (by simp [isTwoWay])
    | wideInt | any | ignored =>
      -- Neither direction carries these.
      intro v input rest
      cases v <;> simp [read, write]

end CallWire.Schema
