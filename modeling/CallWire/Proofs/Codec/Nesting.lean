import CallWire.Proofs.Codec.TwoWay

/-!
# CallWire.Proofs.Codec.Nesting — how deep a schema is gone through

A schema that refers to itself can be gone through for as long as the value or the input lasts.  At
one place of these, however, nothing comes up twice: what comes up within itself there comes up for
ever.  So where a schema is gone through at all, no more nodes are passed at one place than the
schema and the definitions have, and going on to the next place costs something that is finite.  The
argument is the same for writing and for reading, which differ in what a place is.
-/

namespace CallWire

namespace Schema

variable {defs : Defs} {schema inner : Schema}

/-! ### Nodes -/

theorem size_pos (s : Schema) : 0 < s.size := by
  cases s <;> simp [size]

theorem size_le_sizes {s : Schema} {ss : List Schema} (h : s ∈ ss) : s.size ≤ sizes ss := by
  induction ss with
  | nil => cases h
  | cons t ss ih =>
    rw [sizes]
    rcases List.mem_cons.mp h with rfl | h
    · omega
    · have := ih h
      omega

end Schema

namespace Defs

variable {defs : Defs} {schema : Schema} {p q : Schema → Bool}

theorem size_le {name : String} (h : (name, schema) ∈ defs) : schema.size ≤ defs.size := by
  induction defs with
  | nil => cases h
  | cons d defs ih =>
    obtain ⟨k, s⟩ := d
    rw [size]
    rcases List.mem_cons.mp h with h | h
    · obtain ⟨-, rfl⟩ := Prod.mk.injEq .. ▸ h
      omega
    · have := ih h
      omega

/-- The number of nodes of the definitions that satisfy `p`. -/
def sizeWhere (p : Schema → Bool) : Defs → Nat
  | [] => 0
  | (_, s) :: defs => (if p s then s.size else 0) + sizeWhere p defs

theorem sizeWhere_le (p : Schema → Bool) (defs : Defs) : sizeWhere p defs ≤ defs.size := by
  induction defs with
  | nil => rfl
  | cons d defs ih =>
    obtain ⟨k, s⟩ := d
    rw [sizeWhere, size]
    split_ifs <;> omega

theorem sizeWhere_mono (hpq : ∀ s, p s → q s) (defs : Defs) :
    sizeWhere p defs ≤ sizeWhere q defs := by
  induction defs with
  | nil => rfl
  | cons d defs ih =>
    obtain ⟨k, s⟩ := d
    rw [sizeWhere, sizeWhere]
    split_ifs with hp hq
    · omega
    · exact absurd (hpq s hp) hq
    · omega
    · omega

theorem size_add_sizeWhere_le (hpq : ∀ s, p s → q s) {name : String}
    (hs : (name, schema) ∈ defs) (hq : q schema) (hp : ¬ p schema) :
    schema.size + sizeWhere p defs ≤ sizeWhere q defs := by
  induction defs with
  | nil => cases hs
  | cons d defs ih =>
    obtain ⟨k, s⟩ := d
    rw [sizeWhere, sizeWhere]
    rcases List.mem_cons.mp hs with h | h
    · obtain ⟨-, rfl⟩ := Prod.mk.injEq .. ▸ h
      rw [if_neg hp, if_pos hq]
      have hrest : sizeWhere p defs ≤ sizeWhere q defs := sizeWhere_mono hpq defs
      omega
    · have := ih h
      split_ifs with h1 h2
      · omega
      · exact absurd (hpq s h1) h2
      · omega
      · omega

end Defs

namespace Schema

variable {defs : Defs} {schema inner : Schema}

theorem Enters.size_lt_or (h : Enters defs schema inner) :
    inner.size < schema.size ∨ ∃ name, (name, inner) ∈ defs := by
  cases h with
  | option | seq | unsized => simp [size]
  | field h | «variant» h =>
    have := size_le_sizes h
    simp only [size]
    omega
  | ref h => exact .inr ⟨_, mem_of_lookup h⟩

theorem Enters.size_le {K : Nat} (h : Enters defs schema inner) (hdefs : 2 * defs.size ≤ K)
    (hsize : schema.size + defs.size ≤ K) : inner.size + defs.size ≤ K := by
  rcases h.size_lt_or with hlt | ⟨name, hmem⟩
  · omega
  · have := Defs.size_le hmem
    omega

end Schema

/-! ### Going through a schema -/

/-- A recursion over a schema with a depth, such as `read` and `write`: at depth zero it does not
end, and whether it ends at a depth is decided by the schemas entered at the same rank or at lower
ones. -/
structure Descent {ι : Type} (defs : Defs) (rank : ι → Nat) (ends : ι → Nat → Schema → Bool) :
    Prop where
  zero : ∀ {i schema}, ¬ ends i 0 schema
  step : ∀ {i schema m n}, ends i (m + 1) schema →
    (∀ j inner, Schema.Enters defs schema inner → j = i ∨ rank j < rank i →
      ends j m inner → ends j n inner) → ends i (n + 1) schema

namespace Descent

variable {ι : Type} {defs : Defs} {rank : ι → Nat} {ends : ι → Nat → Schema → Bool}
  {schema : Schema} {i : ι} {K m n : Nat}

theorem mono (h : Descent defs rank ends) (hmn : m ≤ n) (hends : ends i m schema) :
    ends i n schema := by
  induction m generalizing n i schema with
  | zero => exact absurd hends h.zero
  | succ m ih =>
    obtain ⟨n, rfl⟩ : ∃ k, n = k + 1 := ⟨n - 1, by omega⟩
    exact h.step hends fun j inner _ _ hinner => ih (by omega) hinner

theorem exists_least (h : Descent defs rank ends) (hends : ends i n schema) :
    ∃ k < n, ends i (k + 1) schema ∧ ¬ ends i k schema := by
  have hex : ∃ k, ends i k schema := ⟨n, hends⟩
  have hpos : Nat.find hex ≠ 0 := fun hzero => by
    have hleast := Nat.find_spec hex
    rw [hzero] at hleast
    exact h.zero hleast
  have hfind : Nat.find hex ≤ n := Nat.find_min' hex hends
  refine ⟨Nat.find hex - 1, by omega, ?_, Nat.find_min hex (by omega)⟩
  rw [Nat.sub_add_cancel (by omega)]
  exact Nat.find_spec hex

/-- At one rank the nodes passed belong to the schema, or to definitions that are passed at less
depth.  By induction on the depth: a definition is entered at the least depth at which the recursion
ends on it, and those entered from there at less, so that none is entered twice. -/
theorem ends_at_place (h : Descent defs rank ends) {D : Nat} (hdefs : 2 * defs.size ≤ K)
    (hlower : ∀ j s k, rank j < rank i → s.size + defs.size ≤ K → ends j k s → ends j D s)
    (n : Nat) (hsize : schema.size + defs.size ≤ K) (hends : ends i (n + 1) schema) :
    ends i (schema.size + Defs.sizeWhere (ends i n) defs + D) schema := by
  induction n using Nat.strong_induction_on generalizing schema with
  | _ n ih =>
    have hpos := schema.size_pos
    obtain ⟨k, hk⟩ : ∃ k, schema.size + Defs.sizeWhere (ends i n) defs + D = k + 1 :=
      ⟨schema.size + Defs.sizeWhere (ends i n) defs + D - 1, by omega⟩
    rw [hk]
    refine h.step hends fun j inner hinner hj hat => ?_
    have hsizeInner : inner.size + defs.size ≤ K := hinner.size_le hdefs hsize
    rcases hj with rfl | hj
    · obtain ⟨m, hm, hleast, hnot⟩ := h.exists_least hat
      refine h.mono ?_ (ih m hm hsizeInner hleast)
      have hgrow (s : Schema) (hs : ends j m s) : ends j n s := h.mono hm.le hs
      rcases hinner.size_lt_or with hlt | ⟨name, hmem⟩
      · have hmono := Defs.sizeWhere_mono hgrow defs
        omega
      · have hmore := Defs.size_add_sizeWhere_le hgrow hmem hat hnot
        omega
    · exact h.mono (by omega) (hlower j inner n hj hsizeInner hat)

theorem ends_rank (h : Descent defs rank ends) (hdefs : 2 * defs.size ≤ K)
    (hsize : schema.size + defs.size ≤ K) (hends : ends i n schema) :
    ends i ((rank i + 1) * K) schema := by
  induction hrank : rank i using Nat.strong_induction_on generalizing i schema n with
  | _ r ih =>
    subst hrank
    cases n with
    | zero => exact absurd hends h.zero
    | succ n =>
      have hplace := h.ends_at_place (D := rank i * K) hdefs
        (fun j s k hj hs hat => h.mono (Nat.mul_le_mul_right K hj) (ih (rank j) hj hs hat rfl))
        n hsize hends
      refine h.mono ?_ hplace
      have hnodes : Defs.sizeWhere (ends i n) defs ≤ defs.size := Defs.sizeWhere_le _ _
      rw [Nat.succ_mul]
      omega

theorem ends_span (h : Descent defs rank ends) (hends : ends i n schema) :
    ends i ((rank i + 1) * schema.span defs) schema := by
  have hdefs : 2 * defs.size ≤ schema.span defs := by
    unfold Schema.span
    omega
  have hsize : schema.size + defs.size ≤ schema.span defs := by
    unfold Schema.span
    omega
  exact h.ends_rank hdefs hsize hends

end Descent

end CallWire
