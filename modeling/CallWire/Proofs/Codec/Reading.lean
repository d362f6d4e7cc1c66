import CallWire.Codec.Stream
import CallWire.Proofs.Codec.Extension
import CallWire.Proofs.Codec.Nesting
import CallWire.Proofs.Codec.Words

/-!
# CallWire.Proofs.Codec.Reading — what reading comes to

Reading stops for want of depth only where every depth would be too small: an item is read at places
of its input, and those behind the first are at least a word further on, so that the words of the
input bound the depth.  What reading comes to at one depth it comes to at the computed one.  With
that, more input does to an item what it does to the reader at any one depth.
-/

namespace CallWire

/-! ### Readers that allow for different depths -/

namespace Reader

variable {α β ι : Type} {r r' : Reader α} {f f' : α → Reader β} {input : Bytes}

/-- On every suffix of the input, the second reader has the result of the first, unless that is
`tooDeep`. -/
def Covers (input : Bytes) (r r' : Reader α) : Prop :=
  ∀ rest : Bytes, rest.IsBehind input → r rest ≠ .tooDeep → r' rest = r rest

theorem covers_refl (r : Reader α) : Covers input r r := fun _ _ _ => rfl

theorem Covers.bind (hr : Covers input r r') (htakes : r.TakesWords)
    (hf : ∀ a, Covers input (f a) (f' a)) : Covers input (r >>= f) (r' >>= f') := by
  intro rest hrest hdeep
  cases hfirst : r rest with
  | value a mid =>
    have hsecond : r' rest = .value a mid := by
      rw [hr rest hrest (by rw [hfirst]; nofun), hfirst]
    rw [bind_of_value hfirst] at hdeep ⊢
    rw [bind_of_value hsecond]
    exact hf a mid ((htakes rest a mid hfirst).trans hrest) hdeep
  | failed e mid =>
    have hsecond : r' rest = .failed e mid := by
      rw [hr rest hrest (by rw [hfirst]; nofun), hfirst]
    rw [bind_of_failed hfirst, bind_of_failed hsecond]
  | tooDeep => exact absurd (bind_of_tooDeep hfirst) hdeep

theorem Covers.times (h : Covers input r r') (htakes : r.TakesWords) (n : Nat) :
    Covers input (times r n) (times r' n) := by
  induction n with
  | zero => exact covers_refl _
  | succ n ih => exact h.bind htakes fun a => ih.bind (htakes.times n) fun as => covers_refl _

theorem covers_all {l : List ι} {r r' : ι → Reader α} (h : ∀ x ∈ l, Covers input (r x) (r' x))
    (htakes : ∀ x ∈ l, (r x).TakesWords) : Covers input (all (l.map r)) (all (l.map r')) := by
  induction l with
  | nil => exact covers_refl _
  | cons x l ih =>
    have hrest := ih (fun y hy => h y (List.mem_cons_of_mem x hy))
      fun y hy => htakes y (List.mem_cons_of_mem x hy)
    have htail : (all (l.map r)).TakesWords :=
      takesWords_all fun y hy => htakes y (List.mem_cons_of_mem x hy)
    exact (h x List.mem_cons_self).bind (htakes x List.mem_cons_self) fun a =>
      hrest.bind htail fun as => covers_refl _

end Reader

namespace Schema

open Reader

variable {defs : Defs} {schema : Schema} {input : Bytes} {n k : Nat}

/-! ### A schema at two depths -/

theorem covers_read_succ (h : ∀ inner, Enters defs schema inner →
      Covers input (inner.read defs n) (inner.read defs k)) :
    Covers input (schema.read defs (n + 1)) (schema.read defs (k + 1)) := by
  have hword : (Reader.word 4).TakesWords := takesWords_word (by decide)
  cases schema with
  | option inner =>
    refine (covers_refl _).bind hword fun w => ?_
    rcases w with _ | _ | w
    · exact covers_refl _
    · exact (h inner .option).bind (takesWords_read n) fun v => covers_refl _
    · exact covers_refl _
  | seq element =>
    refine (covers_refl _).bind hword fun count => ?_
    have helement := (h element .seq).times (takesWords_read n) count
    exact helement.bind ((takesWords_read n).times count) fun vs => covers_refl _
  | unsized container element =>
    refine (covers_refl _).bind hword fun count => ?_
    have helement := (h element .unsized).times (takesWords_read n) count
    exact helement.bind ((takesWords_read n).times count) fun vs => covers_refl _
  | record fields =>
    have htakes (field : Schema) (_ : field ∈ fields) : (field.read defs n).TakesWords :=
      takesWords_read n
    have hfields := covers_all (fun field hfield => h field (.field hfield)) htakes
    exact hfields.bind (takesWords_all htakes) fun vs => covers_refl _
  | enum variants =>
    refine (covers_refl _).bind hword fun index => ?_
    cases hs : variants[index]? with
    | none => exact covers_refl _
    | some s =>
      have hvariant := h s (.variant (List.mem_of_getElem? hs))
      exact hvariant.bind (takesWords_read n) fun v => covers_refl _
  | ref name =>
    simp only [read]
    cases hs : defs.lookup name with
    | none => exact covers_refl _
    | some s => exact h s (.ref hs)
  | _ => exact covers_refl _

theorem covers_read_of_le (hle : n ≤ k) :
    Covers input (schema.read defs n) (schema.read defs k) := by
  induction n generalizing k schema with
  | zero => exact fun _ _ hdeep => absurd rfl hdeep
  | succ n ih =>
    obtain ⟨k, rfl⟩ : ∃ j, k = j + 1 := ⟨k - 1, by omega⟩
    exact covers_read_succ fun inner _ => ih (by omega)

theorem read_eq_of_le (hle : n ≤ k) (h : schema.read defs n input ≠ .tooDeep) :
    schema.read defs k input = schema.read defs n input :=
  covers_read_of_le hle input (.refl input) h

/-! ### The depth that reading takes -/

/-- Reading the input at this depth is not `tooDeep`. -/
def endsAt (defs : Defs) (input : Bytes) (n : Nat) (schema : Schema) : Bool :=
  match schema.read defs n input with
  | .tooDeep => false
  | _ => true

theorem endsAt_iff : schema.endsAt defs input n ↔ schema.read defs n input ≠ .tooDeep := by
  unfold endsAt
  cases schema.read defs n input <;> simp

theorem read_eq_read (hn : schema.read defs n input ≠ .tooDeep)
    (hk : schema.read defs k input ≠ .tooDeep) :
    schema.read defs k input = schema.read defs n input := by
  rcases Nat.le_total n k with hle | hle
  · exact read_eq_of_le hle hn
  · exact (read_eq_of_le hle hk).symm

/-- `read` descends by the number of words left. -/
theorem descent_read (defs : Defs) :
    Descent defs (fun input : Bytes => input.length / 4) (endsAt defs) where
  zero := nofun
  step {input schema m n} h hinner := by
    rw [endsAt_iff] at h ⊢
    have hcovers : Covers input (schema.read defs (m + 1)) (schema.read defs (n + 1)) := by
      refine covers_read_succ fun inner henters rest hrest hdeep => ?_
      have hplace : rest = input ∨ rest.length / 4 < input.length / 4 := by
        rcases hrest.eq_or_le with heq | hle
        · exact .inl heq
        · exact .inr (by omega)
      have hend := hinner rest inner henters hplace (endsAt_iff.mpr hdeep)
      exact read_eq_read hdeep (endsAt_iff.mp hend)
    rw [hcovers input (.refl input) h]
    exact h

theorem reading_eq_read (h : schema.read defs n input ≠ .tooDeep) :
    schema.reading defs input = schema.read defs n input :=
  read_eq_read h (endsAt_iff.mp ((descent_read defs).ends_span (endsAt_iff.mpr h)))

/-! ### More input -/

theorem steady_reading : Reader.Steady (schema.reading defs) where
  value {input v rest} h := by
    obtain ⟨taken, hinput, htaken⟩ := (steady_read (schema.readDepth defs input.length)).value h
    refine ⟨taken, hinput, fun rest' => ?_⟩
    rw [reading_eq_read (by rw [htaken rest']; nofun), htaken rest']
  failed {input e rest} h := (steady_read (schema.readDepth defs input.length)).failed h
  final {input e rest} h hfinal more := by
    have hmore := (steady_read (schema.readDepth defs input.length)).final h hfinal more
    rw [reading_eq_read (by rw [hmore]; nofun), hmore]
  short {input needed remaining rest} h := by
    obtain ⟨hremaining, hlt, hmore⟩ := (steady_read (schema.readDepth defs input.length)).short h
    refine ⟨hremaining, hlt, fun more hlength => ?_⟩
    rw [reading_eq_read (by rw [hmore more hlength]; nofun), hmore more hlength]
  tooDeep {input} h more := by
    -- At the depth for the longer input, too, the shorter one is too deep.
    have hdeep : schema.read defs (schema.readDepth defs (input ++ more).length) input =
        .tooDeep := by
      by_contra hdeep
      rw [reading_eq_read hdeep] at h
      exact hdeep h
    exact (steady_read _).tooDeep hdeep more

end Schema

namespace ItemReader

/-- **A failure is final, or more bytes are needed.**  Taking an item leaves an end of the input.
With more bytes behind it a value comes off just as well, and so does a failure that is not for want
of bytes: it is the same failure, with the same bytes consumed.  A failure for want of bytes tells
how many are left, which is fewer than it asks for; and while those that follow are still too few it
happens again at the same place. -/
theorem next_append (defs : Defs) (schema : Schema) (input : Bytes) :
    ∃ taken rest result, taken ++ rest = input ∧
      next defs ⟨input⟩ schema = (result, ⟨rest⟩) ∧
      (∀ v, result = .ok v → ∀ more,
        next defs ⟨input ++ more⟩ schema = (.ok v, ⟨rest ++ more⟩)) ∧
      (∀ e, result = .error e → (∀ needed remaining, e ≠ .truncated needed remaining) →
        ∀ more, next defs ⟨input ++ more⟩ schema = (.error e, ⟨rest ++ more⟩)) ∧
      ∀ needed remaining, result = .error (.truncated needed remaining) →
        remaining = rest.length ∧ remaining < needed ∧
          ∀ more : Bytes, more.length < needed - remaining →
            next defs ⟨input ++ more⟩ schema =
              (.error (.truncated needed (remaining + more.length)), ⟨rest ++ more⟩) := by
  have hsteady : Reader.Steady (schema.reading defs) := Schema.steady_reading
  cases hreading : schema.reading defs input with
  | value v rest =>
    obtain ⟨taken, htaken, -⟩ := hsteady.value hreading
    refine ⟨taken, rest, .ok v, htaken, by simp [next, hreading], ?_, nofun, nofun⟩
    intro w hw more
    obtain rfl := Except.ok.inj hw
    simp [next, hsteady.value_append hreading more]
  | failed e rest =>
    obtain ⟨⟨taken, htaken⟩, -⟩ := hsteady.failed hreading
    refine ⟨taken, rest, .error e, htaken, by simp [next, hreading], nofun, ?_, ?_⟩
    · intro e' he hfinal more
      obtain rfl := Except.error.inj he
      simp [next, hsteady.final hreading hfinal more]
    · intro needed remaining he
      obtain rfl := Except.error.inj he
      obtain ⟨hremaining, hlt, hmore⟩ := hsteady.short hreading
      refine ⟨hremaining, hlt, fun more hlength => ?_⟩
      simp [next, hmore more hlength]
  -- Reading that runs out of depth consumes nothing, and does so on more input as well.
  | tooDeep =>
    have hnext : next defs ⟨input⟩ schema = (.error (.message "nested too deeply"), ⟨input⟩) := by
      simp [next, hreading]
    refine ⟨[], input, _, rfl, hnext, nofun, ?_, nofun⟩
    intro e' he _ more
    obtain rfl := Except.error.inj he
    simp [next, hsteady.tooDeep hreading more]

/-- A text cut off behind its first letter, and one whose padding is not zero. -/
theorem next_append_text :
    let schema : Schema := .record [.bool, .string]
    let short : Bytes := [0, 0, 0, 1, 0, 0, 0, 6, 97]
    let wrong : Bytes := [0, 0, 0, 1, 0, 0, 0, 2, 97, 98, 0, 7]
    next [] ⟨short ++ [98, 99, 100]⟩ schema =
        (.error (.truncated 6 4), ⟨[97, 98, 99, 100]⟩) ∧
      ∀ more, next [] ⟨wrong ++ more⟩ schema = (.error .nonZeroPadding, ⟨more⟩) := by
  intro schema short wrong
  constructor
  · obtain ⟨taken, rest, result, -, hnext, -, -, hshort⟩ := next_append [] schema short
    have hread : schema.read [] 3 short = .failed (.truncated 6 1) [97] := by rfl
    have heval : next [] ⟨short⟩ schema = (.error (.truncated 6 1), ⟨[97]⟩) := by
      rw [next, Schema.reading_eq_read (by rw [hread]; simp), hread]
    obtain ⟨rfl, hrest⟩ := Prod.mk.inj (heval.symm.trans hnext)
    obtain rfl := ItemReader.mk.inj hrest
    exact (hshort 6 1 rfl).2.2 [98, 99, 100] (by decide)
  · obtain ⟨taken, rest, result, -, hnext, -, hfinal, -⟩ := next_append [] schema wrong
    have hread : schema.read [] 3 wrong = .failed .nonZeroPadding [] := by rfl
    have heval : next [] ⟨wrong⟩ schema = (.error .nonZeroPadding, ⟨[]⟩) := by
      rw [next, Schema.reading_eq_read (by rw [hread]; simp), hread]
    obtain ⟨rfl, hrest⟩ := Prod.mk.inj (heval.symm.trans hnext)
    obtain rfl := ItemReader.mk.inj hrest
    exact hfinal .nonZeroPadding rfl (by simp)

end ItemReader

end CallWire
