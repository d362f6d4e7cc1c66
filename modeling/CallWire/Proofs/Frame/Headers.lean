import CallWire.Proofs.Frame.Tail

/-!
# CallWire.Proofs.Frame.Headers — the byte strings that begin with a header

Reading a header refuses a byte string that is too short, and one whose ninth byte is not a set of
flags that go together.  Every other byte string begins with exactly one header, and that header is
written as the bytes that it was read from.
-/

namespace CallWire

namespace Flag

def bits : UInt8 := reply.bit ||| noReply.bit ||| error.bit

/-- Only defined bits are set, and not both reply and no-reply. -/
def IsProper (flags : UInt8) : Prop :=
  flags &&& ~~~bits = 0 ∧ ¬ (reply.isIn flags ∧ noReply.isIn flags)

end Flag

namespace Header

variable {h : Header} {bs : Bytes} {e : RpcError}

/-! ### The flag byte -/

theorem flagError?_eq_none_iff {flags : UInt8} :
    flagError? flags = none ↔ Flag.IsProper flags := by
  have hbits : ~~~Flag.bits = 0xf8 := by decide
  unfold flagError? Flag.IsProper Flag.undefinedBits
  rw [hbits]
  by_cases hundefined : flags &&& 0xf8 = 0
  · by_cases hboth : Flag.reply.isIn flags ∧ Flag.noReply.isIn flags
    · simp [hundefined, hboth]
    · simp [hundefined, hboth]
  · simp [hundefined]

theorem malformedFrame_of_flagError? {flags : UInt8} (h : flagError? flags = some e) :
    ∃ detail, e = .malformedFrame detail := by
  unfold flagError? at h
  split_ifs at h
  · exact ⟨_, (Option.some.inj h).symm⟩
  · exact ⟨_, (Option.some.inj h).symm⟩

/-! ### Reading -/

theorem parse_of_lt (h : bs.length < size) :
    parse bs = .error (.malformedFrame s!"header needs 13 bytes, got {bs.length}") := by
  have hshort : (bs.take size).length < size := Nat.lt_of_le_of_lt (List.length_take_le' _ _) h
  unfold parse
  exact if_pos hshort

theorem parse_of_le (h : size ≤ bs.length) :
    (∃ e, flagError? (bs.getD 8 0) = some e ∧ parse bs = .error e) ∨
      (flagError? (bs.getD 8 0) = none ∧ ∃ header, parse bs = .ok header) := by
  have hlength : ¬ (bs.take size).length < size := by
    rw [List.length_take_of_le h]
    exact Nat.lt_irrefl _
  have hninth : (bs.take size).getD 8 0 = bs.getD 8 0 := by
    rw [List.getD_eq_getElem?_getD, List.getD_eq_getElem?_getD, List.getElem?_take_of_lt (by decide)]
  unfold parse
  simp only [hlength, if_false, hninth]
  cases hflags : flagError? (bs.getD 8 0) with
  | some e => exact .inl ⟨e, rfl, rfl⟩
  | none => exact .inr ⟨rfl, _, rfl⟩

theorem malformedFrame_of_parse (h : parse bs = .error e) : ∃ detail, e = .malformedFrame detail := by
  by_cases hsize : size ≤ bs.length
  · rcases parse_of_le hsize with ⟨e', hflags, heq⟩ | ⟨-, header, heq⟩
    · obtain rfl := Except.error.inj (heq.symm.trans h)
      exact malformedFrame_of_flagError? hflags
    · cases heq.symm.trans h
  · exact ⟨_, (Except.error.inj ((parse_of_lt (Nat.not_le.mp hsize)).symm.trans h)).symm⟩

theorem exists_parse_iff :
    (∃ header, parse bs = .ok header) ↔
      13 ≤ bs.length ∧ ∃ flags, bs[8]? = some flags ∧ Flag.IsProper flags := by
  by_cases hsize : 13 ≤ bs.length
  · have hninth : bs[8]? = some (bs.getD 8 0) := by
      rw [List.getD_eq_getElem?_getD, List.getElem?_eq_getElem (by omega)]
      rfl
    rw [hninth]
    rcases parse_of_le hsize with ⟨e, hflags, heq⟩ | ⟨hflags, hok⟩
    · refine ⟨fun ⟨_, hok⟩ => ?_, fun ⟨_, flags, hsome, hproper⟩ => ?_⟩
      · cases heq.symm.trans hok
      · obtain rfl := Option.some.inj hsome
        cases hflags.symm.trans (flagError?_eq_none_iff.mpr hproper)
    · exact ⟨fun _ => ⟨hsize, _, rfl, flagError?_eq_none_iff.mp hflags⟩, fun _ => hok⟩
  · refine ⟨fun ⟨_, hok⟩ => ?_, fun ⟨hle, _⟩ => absurd hle hsize⟩
    cases (parse_of_lt (Nat.not_le.mp hsize)).symm.trans hok

theorem getElem?_toBytes_append (h : Header) (rest : Bytes) :
    (h.toBytes ++ rest)[8]? = some h.flags := by
  have hnumbers : (Bytes.ofNat 4 h.command.toNat ++ Bytes.ofNat 4 h.sequence.toNat).length = 8 := by
    simp
  unfold toBytes
  rw [List.append_assoc, List.append_assoc, List.getElem?_append_right (Nat.le_of_eq hnumbers),
    hnumbers]
  rfl

theorem parse_improper (himproper : ¬ Flag.IsProper h.flags) (rest : Bytes) :
    ∃ detail, parse (h.toBytes ++ rest) = .error (.malformedFrame detail) := by
  cases hparse : parse (h.toBytes ++ rest) with
  | error e =>
    obtain ⟨detail, rfl⟩ := malformedFrame_of_parse hparse
    exact ⟨detail, rfl⟩
  | ok header =>
    obtain ⟨-, flags, hninth, hproper⟩ := exists_parse_iff.mp ⟨header, hparse⟩
    obtain rfl := Option.some.inj (hninth.symm.trans (getElem?_toBytes_append h rest))
    exact absurd hproper himproper

/-- **Reading a header inverts writing it, and accepts nothing else.**  A byte string begins with a
header exactly if it has thirteen bytes and the ninth is a proper flag byte; that header is written
as those thirteen bytes, and whatever stands behind them makes no difference.  A header with a
proper flag byte is read back from its bytes, and one with another is refused as malformed. -/
theorem parse_inverts_toBytes :
    (∀ bs : Bytes,
      ((∃ h, parse bs = .ok h) ↔
        13 ≤ bs.length ∧ ∃ flags, bs[8]? = some flags ∧ Flag.IsProper flags) ∧
      (∀ h, parse bs = .ok h →
        h.toBytes = bs.take 13 ∧ ∀ more, parse (bs.take 13 ++ more) = .ok h) ∧
      ∀ e, parse bs = .error e → ∃ detail, e = .malformedFrame detail) ∧
    ∀ (h : Header) (rest : Bytes),
      (Flag.IsProper h.flags → parse (h.toBytes ++ rest) = .ok h) ∧
      (¬ Flag.IsProper h.flags →
        ∃ detail, parse (h.toBytes ++ rest) = .error (.malformedFrame detail)) := by
  refine ⟨fun bs => ⟨exists_parse_iff, fun h hparse => ?_, fun e => malformedFrame_of_parse⟩,
    fun h rest => ⟨fun hproper => ?_, fun himproper => ?_⟩⟩
  · obtain ⟨hbytes, hflags⟩ := toBytes_of_parse hparse
    refine ⟨hbytes, fun more => ?_⟩
    rw [show bs.take 13 = h.toBytes from hbytes.symm]
    exact parse_toBytes hflags more
  · exact parse_toBytes (flagError?_eq_none_iff.mpr hproper) rest
  · exact parse_improper himproper rest

/-- A header whose four numbers differ in every byte, with a payload behind it, and the same with
the flag of a request that is not to be answered beside that of a reply. -/
theorem parse_inverts_toBytes_words :
    let h : Header := ⟨0x01020304, 0x05060708, Flag.reply.bit ||| Flag.error.bit, 0x090a0b0c⟩
    h.toBytes = [1, 2, 3, 4, 5, 6, 7, 8, 5, 9, 10, 11, 12] ∧ parse (h.toBytes ++ [13]) = .ok h ∧
      ∃ detail, parse ({ h with flags := h.flags ||| Flag.noReply.bit }.toBytes ++ [13]) =
        .error (.malformedFrame detail) := by
  intro h
  have hproper : Flag.IsProper h.flags := by
    unfold Flag.IsProper
    decide
  have himproper : ¬ Flag.IsProper (h.flags ||| Flag.noReply.bit) := by
    unfold Flag.IsProper
    decide
  exact ⟨by decide +kernel, (parse_inverts_toBytes.2 h [13]).1 hproper,
    (parse_inverts_toBytes.2 { h with flags := h.flags ||| Flag.noReply.bit } [13]).2 himproper⟩

end Header

end CallWire
