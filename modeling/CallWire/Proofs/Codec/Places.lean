import CallWire.Proofs.Codec.Nesting

/-!
# CallWire.Proofs.Codec.Places — what is written where, place by place

A value under a schema is a tree of places.  Each place puts bytes of its own, such as a scalar, a
count or a discriminant, and then what stands inside it follows; or it refuses to be written, and
nothing follows.  So an item is written as what its places put, in the order in which they are
passed, up to the first that refuses.
-/

namespace CallWire

namespace Written

variable {w w' w'' : Written}

theorem andThen_assoc : (w.andThen w').andThen w'' = w.andThen (w'.andThen w'') := by
  obtain ⟨bs, failure⟩ := w
  obtain ⟨bs', failure'⟩ := w'
  cases failure with
  | some e => rfl
  | none =>
    cases failure' with
    | some e => rfl
    | none => exact congrArg (Written.mk · w''.failure) (List.append_assoc _ _ _)

theorem andThen_ok_nil : w.andThen (ok []) = w := by
  obtain ⟨bs, failure⟩ := w
  cases failure with
  | some e => rfl
  | none => exact congrArg (Written.mk · none) (List.append_nil bs)

theorem concat_append (items items' : List Written) :
    concat (items ++ items') = (concat items).andThen (concat items') := by
  induction items with
  | nil => rfl
  | cons w items ih => rw [List.cons_append, concat_cons, ih, concat_cons, andThen_assoc]

end Written

namespace Value

theorem height_le_heights {vs : List Value} {v : Value} (h : v ∈ vs) : v.height ≤ heights vs := by
  induction vs with
  | nil => cases h
  | cons u vs ih =>
    rw [heights]
    rcases List.mem_cons.mp h with rfl | h
    · omega
    · have := ih h
      omega

end Value

namespace Schema

variable {defs : Defs} {schema : Schema} {v : Value}

/-! ### One place -/

/-- The values directly inside a value with their schemas, in the order of writing; `none` if the
value does not have the schema's form. -/
def parts? (defs : Defs) : Schema → Value → Option (List (Schema × Value))
  | bool, .bool _ | wideInt _, .int _ | float32, .float32 _ | float64, .float64 _ | char, .char _
  | string, .string _ | bytes, .bytes _ | unit, .unit | readable, .unit | option _, .absent =>
    some []
  | int kind, .int n => if kind.Holds n then some [] else none
  | option inner, .present v => some [(inner, v)]
  | seq element, .list vs | unsized _ element, .list vs => some (vs.map (element, ·))
  | record fields, .list vs => if fields.length = vs.length then some (fields.zip vs) else none
  | enum variants, .variant index body =>
    if index < UInt32.size then variants[index]?.map fun s => [(s, body)] else none
  | ref name, v => (defs.lookup name).map fun s => [(s, v)]
  | _, _ => none

theorem mem_parts {inside : List (Schema × Value)} (h : schema.parts? defs v = some inside)
    {p : Schema × Value} (hp : p ∈ inside) :
    Enters defs schema p.1 ∧ (p.2 = v ∨ p.2.height < v.height) := by
  cases schema with
  | option inner =>
    cases v with
    | absent =>
      obtain rfl := Option.some.inj h
      cases hp
    | present u =>
      obtain rfl := Option.some.inj h
      obtain rfl := List.mem_singleton.mp hp
      exact ⟨.option, .inr (Nat.lt_succ_self _)⟩
    | _ => cases h
  | seq element =>
    cases v with
    | list vs =>
      obtain rfl := Option.some.inj h
      obtain ⟨u, hu, rfl⟩ := List.mem_map.mp hp
      exact ⟨.seq, .inr (Nat.lt_succ_of_le (Value.height_le_heights hu))⟩
    | _ => cases h
  | unsized container element =>
    cases v with
    | list vs =>
      obtain rfl := Option.some.inj h
      obtain ⟨u, hu, rfl⟩ := List.mem_map.mp hp
      exact ⟨.unsized, .inr (Nat.lt_succ_of_le (Value.height_le_heights hu))⟩
    | _ => cases h
  | record fields =>
    cases v with
    | list vs =>
      simp only [parts?] at h
      split_ifs at h
      obtain rfl := Option.some.inj h
      obtain ⟨hfield, hu⟩ := List.of_mem_zip hp
      exact ⟨.field hfield, .inr (Nat.lt_succ_of_le (Value.height_le_heights hu))⟩
    | _ => cases h
  | enum variants =>
    cases v with
    | «variant» index body =>
      simp only [parts?] at h
      split_ifs at h
      obtain ⟨s, hs, rfl⟩ := Option.map_eq_some_iff.mp h
      obtain rfl := List.mem_singleton.mp hp
      exact ⟨.variant (List.mem_of_getElem? hs), .inr (Nat.lt_succ_self _)⟩
    | _ => cases h
  | ref name =>
    obtain ⟨s, hs, rfl⟩ : ∃ s, defs.lookup name = some s ∧ [(s, v)] = inside := by
      cases v <;> exact Option.map_eq_some_iff.mp h
    obtain rfl := List.mem_singleton.mp hp
    exact ⟨.ref hs, .inl rfl⟩
  | int kind =>
    cases v with
    | int n =>
      simp only [parts?] at h
      split_ifs at h
      obtain rfl := Option.some.inj h
      cases hp
    | _ => cases h
  | _ =>
    cases v <;> cases h
    all_goals cases hp

def countedBytes (bs : Bytes) : Bytes :=
  Bytes.ofNat 4 bs.length ++ (bs ++ List.replicate (padding bs.length) 0)

/-- The bytes written for a value ahead of the values inside it. -/
def own : Schema → Value → Bytes
  | bool, .bool b => Bytes.ofNat 4 b.toNat
  | int kind, .int n => kind.toBytes n
  | float32, .float32 bits => Bytes.ofNat 4 bits.toNat
  | float64, .float64 bits => Bytes.ofNat 8 bits.toNat
  | char, .char c => Bytes.ofNat 4 c.toNat
  | string, .string s => countedBytes (Bytes.ofText s)
  | bytes, .bytes bs => countedBytes bs
  | readable, .unit => Bytes.ofNat 4 0
  | option _, .absent => Bytes.ofNat 4 0
  | option _, .present _ => Bytes.ofNat 4 1
  | seq _, .list vs => Bytes.ofNat 4 vs.length
  | enum _, .variant index _ => Bytes.ofNat 4 index
  | _, _ => []

/-- The error for a length above 32 bits. -/
def tooLong? (length : Nat) : Option CodecError :=
  if length < UInt32.size then none else some (.lengthOverflow length)

/-- The error for a value that cannot be written: a container without a length, a 128-bit integer,
or a text, a byte string or a sequence that is too long. -/
def refusal? : Schema → Value → Option CodecError
  | wideInt isSigned, _ => some (.wideInt isSigned)
  | unsized container _, _ => some container.lengthError
  | string, .string s => tooLong? (Bytes.ofText s).length
  | bytes, .bytes bs => tooLong? bs.length
  | seq _, .list vs => tooLong? vs.length
  | _, _ => none

/-- A value without the values inside it. -/
def head (schema : Schema) (v : Value) : Written :=
  match schema.refusal? v with
  | some e => .fail e
  | none => .ok (schema.own v)

theorem head_eq_length (n : Nat) :
    (match tooLong? n with
      | some e => Written.fail e
      | none => Written.ok (Bytes.ofNat 4 n)) = Written.length n := by
  unfold tooLong? Written.length
  split_ifs
  · rfl
  · rfl

theorem head_eq_counted (bs : Bytes) :
    (match tooLong? bs.length with
      | some e => Written.fail e
      | none => Written.ok (countedBytes bs)) = Written.counted bs := by
  unfold tooLong? Written.counted Written.length
  split_ifs
  · rfl
  · rfl

/-- **A value is written as its head, followed by the values inside it.** -/
theorem write_of_parts {inside : List (Schema × Value)} (d : Nat)
    (h : schema.parts? defs v = some inside) :
    schema.write defs (d + 1) v =
      (schema.head v).andThen (.concat (inside.map fun p => p.1.write defs d p.2)) := by
  cases schema with
  | int kind =>
    cases v with
    | int n =>
      simp only [parts?] at h
      split_ifs at h with hn
      obtain rfl := Option.some.inj h
      rw [write, if_pos hn]
      exact Written.andThen_ok_nil.symm
    | _ => cases h
  | string =>
    cases v with
    | string s =>
      obtain rfl := Option.some.inj h
      exact ((head_eq_counted _).symm).trans Written.andThen_ok_nil.symm
    | _ => cases h
  | bytes =>
    cases v with
    | bytes bs =>
      obtain rfl := Option.some.inj h
      exact ((head_eq_counted _).symm).trans Written.andThen_ok_nil.symm
    | _ => cases h
  | option inner =>
    cases v with
    | absent =>
      obtain rfl := Option.some.inj h
      rfl
    | present u =>
      obtain rfl := Option.some.inj h
      rw [List.map_singleton, Written.concat_cons, Written.concat_nil, Written.andThen_ok_nil]
      rfl
    | _ => cases h
  | seq element =>
    cases v with
    | list vs =>
      obtain rfl := Option.some.inj h
      rw [write, List.map_map, ← head_eq_length]
      rfl
    | _ => cases h
  | record fields =>
    cases v with
    | list vs =>
      simp only [parts?] at h
      split_ifs at h with hlength
      obtain rfl := Option.some.inj h
      rw [write, if_pos hlength, ← List.map_uncurry_zip_eq_zipWith]
      rfl
    | _ => cases h
  | enum variants =>
    cases v with
    | «variant» index body =>
      simp only [parts?] at h
      split_ifs at h with hindex
      obtain ⟨s, hs, rfl⟩ := Option.map_eq_some_iff.mp h
      rw [write, hs, List.map_singleton, Written.concat_cons, Written.concat_nil,
        Written.andThen_ok_nil]
      exact if_pos hindex
    | _ => cases h
  | ref name =>
    obtain ⟨s, hs, rfl⟩ : ∃ s, defs.lookup name = some s ∧ [(s, v)] = inside := by
      cases v <;> exact Option.map_eq_some_iff.mp h
    rw [write, hs, List.map_singleton, Written.concat_cons, Written.concat_nil,
      Written.andThen_ok_nil]
    rfl
  | _ =>
    cases v <;> cases h
    all_goals rfl

theorem write_of_no_parts (d : Nat) (h : schema.parts? defs v = none) :
    ∃ e, schema.write defs (d + 1) v = .fail e := by
  cases schema with
  | int kind =>
    cases v with
    | int n =>
      simp only [parts?] at h
      split_ifs at h with hn
      exact ⟨_, if_neg hn⟩
    | _ => exact ⟨_, rfl⟩
  | record fields =>
    cases v with
    | list vs =>
      simp only [parts?] at h
      split_ifs at h with hlength
      exact ⟨_, if_neg hlength⟩
    | _ => exact ⟨_, rfl⟩
  | enum variants =>
    cases v with
    | «variant» index body =>
      simp only [parts?] at h
      rw [write]
      cases hs : variants[index]? with
      | none => exact ⟨_, rfl⟩
      | some s =>
        rw [hs] at h
        split_ifs at h with hindex
        · cases h
        · exact ⟨_, if_neg hindex⟩
    | _ => exact ⟨_, rfl⟩
  | ref name =>
    have hname : defs.lookup name = none := by
      cases v <;> exact Option.map_eq_none_iff.mp h
    rw [write, hname]
    exact ⟨_, rfl⟩
  | _ =>
    cases v <;> first | exact ⟨_, rfl⟩ | cases h

end Schema

end CallWire
