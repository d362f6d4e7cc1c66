import CallWire.Codec.Decode
import CallWire.Proofs.Bytes

/-!
# CallWire.Proofs.Codec.Reads — readers that undo writers

`r.Reads w` says that the reader `r` takes a value off the front of its input exactly if the input
begins with what `w` writes for that value.  Each scalar of the format has such a pair, and items in
a row are read as they are written if each of them is.
-/

namespace CallWire

/-! ### What is written in full -/

namespace Written

theorem ok_inj {a b : Bytes} : ok a = ok b ↔ a = b := by
  simp [ok]

@[simp] theorem fail_ne_ok (e : CodecError) (bs : Bytes) : fail e ≠ ok bs := by
  simp [fail, ok]

@[simp] theorem misfit_ne_ok (bs : Bytes) : misfit ≠ ok bs := fail_ne_ok _ bs

theorem andThen_eq_ok {first next : Written} {bs : Bytes} :
    first.andThen next = ok bs ↔ ∃ a b, first = ok a ∧ next = ok b ∧ a ++ b = bs := by
  obtain ⟨fb, ff⟩ := first
  obtain ⟨nb, nf⟩ := next
  cases ff with
  | some e => simp [andThen, ok]
  | none =>
    simp only [andThen, ok, mk.injEq]
    constructor
    · rintro ⟨h1, h2⟩
      exact ⟨fb, nb, ⟨rfl, trivial⟩, ⟨rfl, h2⟩, h1⟩
    · rintro ⟨a, b, ⟨rfl, -⟩, ⟨rfl, h2⟩, h1⟩
      exact ⟨h1, h2⟩

theorem length_eq_ok {n : Nat} {bs : Bytes} :
    length n = ok bs ↔ n < UInt32.size ∧ Bytes.ofNat 4 n = bs := by
  unfold length word
  split_ifs with h
  · simp [h, ok_inj]
  · simp [h]

theorem toExcept_eq_ok {w : Written} {bs : Bytes} : w.toExcept = .ok bs ↔ w = ok bs := by
  obtain ⟨b, f⟩ := w
  cases f <;> simp [toExcept, ok]

end Written

/-! ### Reading in steps -/

namespace Reader

variable {α β ι : Type}

/-- The reader consumes what the writer writes, and nothing else, whatever follows. -/
def Reads (r : Reader α) (w : α → Written) : Prop :=
  ∀ a input rest, r input = .value a rest ↔ ∃ bs, w a = .ok bs ∧ bs ++ rest = input

@[simp] theorem pure_eq_value {a b : α} {input rest : Bytes} :
    (Pure.pure a : Reader α) input = .value b rest ↔ a = b ∧ input = rest := by
  show Reader.pure a input = _ ↔ _
  simp [Reader.pure]

@[simp] theorem fail_ne_value {e : CodecError} {a : α} {input rest : Bytes} :
    (fail e : Reader α) input ≠ .value a rest := by
  simp [fail]

theorem bind_eq_value {r : Reader α} {f : α → Reader β} {b : β} {input rest : Bytes} :
    (r >>= f) input = .value b rest ↔
      ∃ a mid, r input = .value a mid ∧ f a mid = .value b rest := by
  show Reader.bind r f input = _ ↔ _
  unfold Reader.bind
  cases r input with
  | value a mid =>
    constructor
    · intro h
      exact ⟨a, mid, rfl, h⟩
    · rintro ⟨a', mid', h, hf⟩
      rw [Reading.value.injEq] at h
      obtain ⟨rfl, rfl⟩ := h
      exact hf
  | failed e mid => simp
  | tooDeep => simp

theorem take_eq_value {n : Nat} {bs input rest : Bytes} :
    take n input = .value bs rest ↔ bs.length = n ∧ bs ++ rest = input := by
  unfold take
  constructor
  · intro h
    dsimp only at h
    split_ifs at h with hn
    rw [Reading.value.injEq] at h
    obtain ⟨rfl, rfl⟩ := h
    exact ⟨hn, List.take_append_drop n input⟩
  · rintro ⟨rfl, rfl⟩
    simp

theorem word_eq_value {w n : Nat} {input rest : Bytes} :
    word w input = .value n rest ↔ n < 256 ^ w ∧ Bytes.ofNat w n ++ rest = input := by
  unfold word
  simp only [bind_eq_value, take_eq_value, pure_eq_value]
  constructor
  · rintro ⟨bs, mid, ⟨rfl, rfl⟩, rfl, rfl⟩
    exact ⟨Bytes.toNat_lt bs, by rw [Bytes.ofNat_toNat]⟩
  · rintro ⟨hn, rfl⟩
    exact ⟨Bytes.ofNat w n, rest, ⟨Bytes.length_ofNat w n, rfl⟩, Bytes.toNat_ofNat hn, rfl⟩

/-! ### The scalars of the format -/

theorem reads_bool : bool.Reads fun b => .word b.toNat := by
  intro b input rest
  unfold bool
  simp only [bind_eq_value, word_eq_value, Written.word, Written.ok_inj, exists_eq_left']
  constructor
  · rintro ⟨n, mid, ⟨hn, rfl⟩, h⟩
    split at h
    · rw [pure_eq_value] at h
      obtain ⟨rfl, rfl⟩ := h
      rfl
    · rw [pure_eq_value] at h
      obtain ⟨rfl, rfl⟩ := h
      rfl
    · exact absurd h fail_ne_value
  · rintro rfl
    refine ⟨b.toNat, rest, ⟨by cases b <;> simp, rfl⟩, ?_⟩
    cases b <;> simp

theorem reads_char : char.Reads fun c => .word c.toNat := by
  intro c input rest
  unfold char
  simp only [bind_eq_value, word_eq_value, Written.word, Written.ok_inj, exists_eq_left']
  constructor
  · rintro ⟨n, mid, ⟨hn, rfl⟩, h⟩
    split_ifs at h with hv
    · rw [pure_eq_value] at h
      obtain ⟨rfl, rfl⟩ := h
      rw [Char.ofNat, dif_pos hv]
      rfl
    · exact absurd h fail_ne_value
  · rintro rfl
    have hc : c.toNat < 256 ^ 4 := c.val.toNat_lt
    have hv : c.toNat.isValidChar := c.valid
    refine ⟨c.toNat, rest, ⟨hc, rfl⟩, ?_⟩
    rw [if_pos hv, pure_eq_value]
    exact ⟨Char.ofNat_toNat c, rfl⟩

theorem reads_counted : counted.Reads Written.counted := by
  intro bs input rest
  unfold counted Written.counted
  simp only [bind_eq_value, word_eq_value, take_eq_value, Written.andThen_eq_ok,
    Written.length_eq_ok, Written.ok_inj]
  constructor
  · rintro ⟨n, _, ⟨hn, rfl⟩, bs', _, ⟨rfl, rfl⟩, pad, mid, ⟨hpad, rfl⟩, h⟩
    split_ifs at h with hz
    · rw [pure_eq_value] at h
      obtain ⟨rfl, rfl⟩ := h
      -- Padding of the right length that is zero throughout is the padding that is written.
      have hzero : pad = List.replicate (padding bs'.length) 0 := by
        refine List.eq_replicate_iff.mpr ⟨hpad, fun b hb => ?_⟩
        simpa using List.all_eq_true.mp hz b hb
      exact ⟨_, ⟨_, _, ⟨hn, rfl⟩, rfl, rfl⟩, by rw [← hzero]; simp⟩
    · exact absurd h fail_ne_value
  · rintro ⟨_, ⟨_, _, ⟨hn, rfl⟩, rfl, rfl⟩, rfl⟩
    refine ⟨bs.length, bs ++ (List.replicate (padding bs.length) 0 ++ rest), ⟨hn, by simp⟩,
      bs, List.replicate (padding bs.length) 0 ++ rest, ⟨rfl, rfl⟩,
      List.replicate (padding bs.length) 0, rest, ⟨by simp, rfl⟩, ?_⟩
    simp

theorem reads_text : text.Reads fun s => .counted (Bytes.ofText s) := by
  intro s input rest
  unfold text
  simp only [bind_eq_value]
  constructor
  · rintro ⟨bs, mid, hbs, h⟩
    cases hs : Bytes.toText? bs with
    | some s' =>
      rw [hs] at h
      obtain ⟨rfl, rfl⟩ := pure_eq_value.mp h
      rw [Bytes.ofText_of_toText? hs]
      exact (reads_counted bs input mid).mp hbs
    | none =>
      rw [hs] at h
      exact absurd h fail_ne_value
  · intro h
    refine ⟨Bytes.ofText s, rest, (reads_counted _ _ _).mpr h, ?_⟩
    simp

end Reader

/-! ### Integers -/

namespace IntKind

theorem wordCount_eq (k : IntKind) : k.wordCount = 256 ^ k.width := by
  cases k <;> rfl

theorem ofWord_toNat {k : IntKind} {n : Int} (h : k.Holds n) :
    k.ofWord (n % k.wordCount).toNat = n := by
  obtain ⟨h1, h2⟩ := h
  cases k <;>
    simp [ofWord, least, greatest, isSigned, count, wordCount, Int.bmod_def] at h1 h2 ⊢ <;> omega

theorem toNat_ofWord (k : IntKind) {w : Nat} (h : w < 256 ^ k.width) :
    (k.ofWord w % k.wordCount).toNat = w := by
  rw [← wordCount_eq] at h
  cases k <;> simp [ofWord, isSigned, wordCount, UInt32.size, UInt64.size, Int.bmod_def] at h ⊢ <;>
    omega

end IntKind

namespace Reader

variable {α β ι : Type}

theorem reads_int (kind : IntKind) :
    (int kind).Reads fun n => if kind.Holds n then .ok (kind.toBytes n) else .misfit := by
  intro n input rest
  unfold int
  simp only [bind_eq_value, word_eq_value]
  constructor
  · rintro ⟨w, mid, ⟨hw, rfl⟩, h⟩
    split_ifs at h with hk
    · rw [pure_eq_value] at h
      obtain ⟨rfl, rfl⟩ := h
      rw [if_pos hk]
      refine ⟨_, rfl, ?_⟩
      rw [IntKind.toBytes, IntKind.toNat_ofWord kind hw]
    · exact absurd h fail_ne_value
  · rintro ⟨bs, h, rfl⟩
    split_ifs at h with hk
    · rw [Written.ok_inj] at h
      subst h
      have hlt : (n % kind.wordCount).toNat < 256 ^ kind.width := by
        rw [← IntKind.wordCount_eq]
        have hpos : (0 : Int) < kind.wordCount := by cases kind <;> decide
        have := Int.emod_lt_of_pos n hpos
        omega
      refine ⟨_, rest, ⟨hlt, rfl⟩, ?_⟩
      rw [IntKind.ofWord_toNat hk, if_pos hk, pure_eq_value]
      exact ⟨rfl, rfl⟩
    · exact absurd h (Written.misfit_ne_ok bs)

/-! ### Items in a row -/

theorem times_eq_value {r : Reader α} {w : α → Written} (hr : r.Reads w) {n : Nat} {as : List α}
    {input rest : Bytes} :
    times r n input = .value as rest ↔
      as.length = n ∧ ∃ bs, Written.concat (as.map w) = .ok bs ∧ bs ++ rest = input := by
  induction n generalizing as input rest with
  | zero =>
    rw [times, pure_eq_value]
    constructor
    · rintro ⟨rfl, rfl⟩
      exact ⟨rfl, [], rfl, rfl⟩
    · rintro ⟨hl, bs, hbs, rfl⟩
      obtain rfl := List.length_eq_zero_iff.mp hl
      rw [List.map_nil, Written.concat_nil, Written.ok_inj] at hbs
      subst hbs
      exact ⟨rfl, rfl⟩
  | succ n ih =>
    rw [times]
    simp only [bind_eq_value, pure_eq_value, ih]
    constructor
    · rintro ⟨a, _, ha, as', _, ⟨rfl, bs, hbs, rfl⟩, rfl, rfl⟩
      obtain ⟨b, hb, rfl⟩ := (hr _ _ _).mp ha
      refine ⟨rfl, b ++ bs, ?_, List.append_assoc _ _ _⟩
      rw [List.map_cons, Written.concat_cons, hb, hbs]
      rfl
    · rintro ⟨hl, bs, hbs, rfl⟩
      cases as with
      | nil => cases hl
      | cons a as =>
        rw [List.map_cons, Written.concat_cons, Written.andThen_eq_ok] at hbs
        obtain ⟨b, bs, hb, hbs, rfl⟩ := hbs
        refine ⟨a, bs ++ rest, (hr _ _ _).mpr ⟨b, hb, (List.append_assoc _ _ _).symm⟩, as, rest,
          ⟨Nat.succ.inj hl, bs, hbs, rfl⟩, rfl, rfl⟩

theorem all_eq_value {l : List ι} {r : ι → Reader α} {w : ι → α → Written}
    (hr : ∀ x ∈ l, (r x).Reads (w x)) {as : List α} {input rest : Bytes} :
    all (l.map r) input = .value as rest ↔
      l.length = as.length ∧
        ∃ bs, Written.concat (List.zipWith w l as) = .ok bs ∧ bs ++ rest = input := by
  induction l generalizing as input rest with
  | nil =>
    rw [List.map_nil, all, pure_eq_value]
    constructor
    · rintro ⟨rfl, rfl⟩
      exact ⟨rfl, [], rfl, rfl⟩
    · rintro ⟨hl, bs, hbs, rfl⟩
      obtain rfl := List.length_eq_zero_iff.mp hl.symm
      rw [List.zipWith_nil_left, Written.concat_nil, Written.ok_inj] at hbs
      subst hbs
      exact ⟨rfl, rfl⟩
  | cons x l ih =>
    have hx := hr x List.mem_cons_self
    rw [List.map_cons, all]
    simp only [bind_eq_value, pure_eq_value, ih fun y hy => hr y (List.mem_cons_of_mem x hy)]
    constructor
    · rintro ⟨a, _, ha, as', _, ⟨hlen, bs, hbs, rfl⟩, rfl, rfl⟩
      obtain ⟨b, hb, rfl⟩ := (hx _ _ _).mp ha
      refine ⟨by simp [hlen], b ++ bs, ?_, List.append_assoc _ _ _⟩
      rw [List.zipWith_cons_cons, Written.concat_cons, hb, hbs]
      rfl
    · rintro ⟨hlen, bs, hbs, rfl⟩
      cases as with
      | nil => cases hlen
      | cons a as =>
        rw [List.zipWith_cons_cons, Written.concat_cons, Written.andThen_eq_ok] at hbs
        obtain ⟨b, bs, hb, hbs, rfl⟩ := hbs
        refine ⟨a, bs ++ rest, (hx _ _ _).mpr ⟨b, hb, (List.append_assoc _ _ _).symm⟩, as, rest,
          ⟨Nat.succ.inj hlen, bs, hbs, rfl⟩, rfl, rfl⟩

end Reader

end CallWire
