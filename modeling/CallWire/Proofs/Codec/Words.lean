import CallWire.Proofs.Codec.Places

/-!
# CallWire.Proofs.Codec.Words — everything takes a whole number of words

What is written for an item fills its last 32-bit word, also where the item fails on the way.  So an
item that is read ends where a word does; it takes no bytes, or at least four.
-/

namespace CallWire

/-! ### Writing -/

namespace Written

variable {first next : Written}

/-- The bytes are whole words. -/
def IsAligned (w : Written) : Prop := 4 ∣ w.bytes.length

theorem isAligned_fail (e : CodecError) : (fail e).IsAligned := dvd_zero 4

theorem isAligned_word (n : Nat) : (word n).IsAligned := by
  show 4 ∣ (Bytes.ofNat 4 n).length
  rw [Bytes.length_ofNat]

theorem IsAligned.andThen (h : first.IsAligned) (h' : next.IsAligned) :
    (first.andThen next).IsAligned := by
  unfold Written.andThen
  cases first.failure with
  | some e => exact h
  | none =>
    show 4 ∣ (first.bytes ++ next.bytes).length
    rw [List.length_append]
    exact Nat.dvd_add h h'

theorem isAligned_concat {items : List Written} (h : ∀ w ∈ items, w.IsAligned) :
    (concat items).IsAligned := by
  induction items with
  | nil => exact dvd_zero 4
  | cons w items ih =>
    rw [concat_cons]
    exact (h w List.mem_cons_self).andThen (ih fun v hv => h v (List.mem_cons_of_mem w hv))

theorem four_dvd_add_padding (n : Nat) : 4 ∣ n + padding n := by
  unfold padding
  omega

theorem four_dvd_countedBytes (bs : Bytes) : 4 ∣ (Schema.countedBytes bs).length := by
  have hpadding := four_dvd_add_padding bs.length
  simp only [Schema.countedBytes, List.length_append, Bytes.length_ofNat, List.length_replicate]
  omega

theorem isAligned_counted (bs : Bytes) : (counted bs).IsAligned := by
  rw [← Schema.head_eq_counted]
  cases Schema.tooLong? bs.length with
  | some e => exact isAligned_fail e
  | none => exact four_dvd_countedBytes bs

theorem four_dvd_toBytes (kind : IntKind) (n : Int) : 4 ∣ (kind.toBytes n).length := by
  rw [IntKind.toBytes, Bytes.length_ofNat]
  cases kind <;> decide

theorem isAligned_int (kind : IntKind) (n : Int) :
    (if kind.Holds n then ok (kind.toBytes n) else misfit).IsAligned := by
  split_ifs
  · exact four_dvd_toBytes kind n
  · exact isAligned_fail _

end Written

/-! ### Reading -/

/-- The first byte string is what is left of the second after whole words. -/
def Bytes.IsBehind (rest input : Bytes) : Prop := ∃ words, words ++ rest = input ∧ 4 ∣ words.length

namespace Bytes

variable {input mid rest : Bytes}

theorem IsBehind.refl (input : Bytes) : input.IsBehind input := ⟨[], rfl, dvd_zero 4⟩

theorem IsBehind.trans (h : rest.IsBehind mid) (h' : mid.IsBehind input) : rest.IsBehind input := by
  obtain ⟨words, rfl, hwords⟩ := h
  obtain ⟨words', rfl, hwords'⟩ := h'
  refine ⟨words' ++ words, List.append_assoc _ _ _, ?_⟩
  rw [List.length_append]
  exact Nat.dvd_add hwords' hwords

theorem IsBehind.eq_or_le (h : rest.IsBehind input) :
    rest = input ∨ rest.length + 4 ≤ input.length := by
  obtain ⟨words, rfl, hwords⟩ := h
  by_cases hempty : words = []
  · rw [hempty]
    exact .inl rfl
  · have hle := Nat.le_of_dvd (List.length_pos_iff.mpr hempty) hwords
    rw [List.length_append]
    exact .inr (by omega)

end Bytes

namespace Reader

variable {α β ι : Type} {r : Reader α} {f : α → Reader β}

/-- The reader consumes whole words. -/
def TakesWords (r : Reader α) : Prop :=
  ∀ input a rest, r input = .value a rest → rest.IsBehind input

theorem Reads.takesWords {w : α → Written} (hr : r.Reads w) (hw : ∀ a, (w a).IsAligned) :
    r.TakesWords := by
  intro input a rest h
  obtain ⟨bs, hbs, hinput⟩ := (hr a input rest).mp h
  have haligned := hw a
  rw [hbs] at haligned
  exact ⟨bs, hinput, haligned⟩

theorem takesWords_pure (a : α) : (Pure.pure a : Reader α).TakesWords := by
  intro input b rest h
  obtain ⟨-, rfl⟩ := pure_eq_value.mp h
  exact .refl input

theorem takesWords_fail (e : CodecError) : (fail e : Reader α).TakesWords :=
  fun _ _ _ h => absurd h fail_ne_value

theorem takesWords_word {w : Nat} (hw : 4 ∣ w) : (word w).TakesWords := by
  intro input n rest h
  obtain ⟨-, hinput⟩ := word_eq_value.mp h
  refine ⟨_, hinput, ?_⟩
  rw [Bytes.length_ofNat]
  exact hw

theorem TakesWords.bind (hr : r.TakesWords) (hf : ∀ a, (f a).TakesWords) :
    (r >>= f).TakesWords := by
  intro input b rest h
  obtain ⟨a, mid, ha, hb⟩ := bind_eq_value.mp h
  exact (hf a mid b rest hb).trans (hr input a mid ha)

theorem TakesWords.times (h : r.TakesWords) (n : Nat) : (times r n).TakesWords := by
  induction n with
  | zero => exact takesWords_pure []
  | succ n ih => exact h.bind fun a => ih.bind fun as => takesWords_pure (a :: as)

theorem takesWords_all {l : List ι} {r : ι → Reader α} (h : ∀ x ∈ l, (r x).TakesWords) :
    (all (l.map r)).TakesWords := by
  induction l with
  | nil => exact takesWords_pure []
  | cons x l ih =>
    have hrest := ih fun y hy => h y (List.mem_cons_of_mem x hy)
    exact (h x List.mem_cons_self).bind fun a => hrest.bind fun as => takesWords_pure (a :: as)

end Reader

namespace Schema

open Reader Written

variable {defs : Defs} {schema : Schema}

theorem isAligned_head (schema : Schema) (v : Value) : (schema.head v).IsAligned := by
  unfold head
  cases schema.refusal? v with
  | some e => exact isAligned_fail e
  | none =>
    show 4 ∣ (schema.own v).length
    cases schema with
    | int kind =>
      cases v with
      | int n => exact four_dvd_toBytes kind n
      | _ => exact dvd_zero 4
    | string =>
      cases v with
      | string s => exact four_dvd_countedBytes (Bytes.ofText s)
      | _ => exact dvd_zero 4
    | bytes =>
      cases v with
      | bytes bs => exact four_dvd_countedBytes bs
      | _ => exact dvd_zero 4
    | _ => cases v <;> simp [own]

/-- **Whole words are written**, also where an error stops it. -/
theorem isAligned_write (d : Nat) (v : Value) : (schema.write defs d v).IsAligned := by
  induction d generalizing schema v with
  | zero => exact isAligned_fail _
  | succ d ih =>
    cases hinside : schema.parts? defs v with
    | none =>
      obtain ⟨e, he⟩ := write_of_no_parts d hinside
      rw [he]
      exact isAligned_fail e
    | some inside =>
      rw [write_of_parts d hinside]
      refine (isAligned_head schema v).andThen (isAligned_concat fun w hw => ?_)
      obtain ⟨p, -, rfl⟩ := List.mem_map.mp hw
      exact ih p.2

theorem takesWords_read (d : Nat) : (schema.read defs d).TakesWords := by
  induction d generalizing schema with
  | zero => exact fun _ _ _ h => nomatch h
  | succ d ih =>
    have hword : (Reader.word 4).TakesWords := takesWords_word (by decide)
    have hbool : Reader.bool.TakesWords := reads_bool.takesWords fun b => isAligned_word _
    cases schema with
    | bool | readable => exact hbool.bind fun b => takesWords_pure _
    | int kind =>
      have hint : (Reader.int kind).TakesWords := (reads_int kind).takesWords (isAligned_int kind)
      exact hint.bind fun n => takesWords_pure _
    | float32 => exact hword.bind fun n => takesWords_pure _
    | float64 =>
      have hlong : (Reader.word 8).TakesWords := takesWords_word (by decide)
      exact hlong.bind fun n => takesWords_pure _
    | char =>
      have hchar : Reader.char.TakesWords := reads_char.takesWords fun c => isAligned_word _
      exact hchar.bind fun c => takesWords_pure _
    | string =>
      have htext : Reader.text.TakesWords := reads_text.takesWords fun s => isAligned_counted _
      exact htext.bind fun s => takesWords_pure _
    | bytes =>
      have hcounted : Reader.counted.TakesWords := reads_counted.takesWords isAligned_counted
      exact hcounted.bind fun bs => takesWords_pure _
    | unit => exact takesWords_pure _
    | wideInt | any | ignored => exact takesWords_fail _
    | option inner =>
      refine hword.bind fun n => ?_
      rcases n with _ | _ | n
      · exact takesWords_pure _
      · exact ih.bind fun v => takesWords_pure _
      · exact takesWords_fail _
    | seq element | unsized _ element =>
      exact hword.bind fun n => (ih.times n).bind fun vs => takesWords_pure _
    | record fields => exact (takesWords_all fun field _ => ih).bind fun vs => takesWords_pure _
    | enum variants =>
      refine hword.bind fun index => ?_
      cases variants[index]? with
      | none => exact takesWords_fail _
      | some s => exact ih.bind fun v => takesWords_pure _
    | ref name =>
      simp only [read]
      cases defs.lookup name with
      | none => exact takesWords_fail _
      | some s => exact ih

end Schema

end CallWire
