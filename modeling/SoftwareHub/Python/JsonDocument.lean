import SoftwareHub.Python.JsonRoundTrip

/-! Whole documents: what sorting the keys leaves in place, which documents can be
encoded, how long a document gets, and the bytes of a written document read back. -/
namespace SoftwareHub.Python.Json

/-- With distinct keys, the lookup finds exactly the pairs of the list, wherever
they stand. -/
theorem get?_eq_some_iff {members : List (PyStr × Json)} (hNodup : (members.map Prod.fst).Nodup)
    (key : PyStr) (value : Json) : get? members key = some value ↔ (key, value) ∈ members := by
  have hLookup : ∀ pairs : List (PyStr × Json), (pairs.map Prod.fst).Nodup →
      (pairs.lookup key = some value ↔ (key, value) ∈ pairs) := by
    intro pairs hPairs
    induction pairs with
    | nil => simp
    | cons pair pairs ih =>
        obtain ⟨head, stored⟩ := pair
        obtain ⟨hFresh, hPairs⟩ := List.nodup_cons.mp hPairs
        rw [List.lookup_cons]
        by_cases hKey : key = head
        · subst hKey
          have hAbsent : (key, value) ∉ pairs := fun h => hFresh (List.mem_map.mpr ⟨_, h, rfl⟩)
          simp [hAbsent, eq_comm]
        · have hTest : (key == head) = false := by simpa using hKey
          simp [hTest, hKey, ih hPairs]
  rw [get?, hLookup _ (by simpa using hNodup), List.mem_reverse]

/-- Sorting an object moves its members and neither drops nor repeats one. -/
theorem sortKeys_perm (members : List (PyStr × Json)) : (sortKeys members).Perm members :=
  List.perm_insertionSort _ members

theorem sortedItems_eq_map (items : List Json) : sorted.sortedItems items = items.map sorted := by
  induction items with
  | nil => rfl
  | cons item items ih => simp [sorted.sortedItems, ih]

theorem sortedMembers_eq_map (members : List (PyStr × Json)) :
    sorted.sortedMembers members = members.map fun member => (member.1, member.2.sorted) := by
  induction members with
  | nil => rfl
  | cons member members ih => simp [sorted.sortedMembers, ih]

/-- Sorting the keys changes no lookup, but for the values being sorted in turn. -/
theorem get?_sorted {members : List (PyStr × Json)} (hNodup : (members.map Prod.fst).Nodup)
    {key : PyStr} {value : Json} (h : (key, value) ∈ members) :
    get? (sortKeys (sorted.sortedMembers members)) key = some value.sorted := by
  have hPerm := sortKeys_perm (sorted.sortedMembers members)
  have hKeys : ((sorted.sortedMembers members).map Prod.fst).Nodup := by
    rw [sortedMembers_eq_map, List.map_map]
    exact hNodup
  rw [get?_eq_some_iff ((hPerm.map Prod.fst).nodup_iff.mpr hKeys), hPerm.mem_iff, sortedMembers_eq_map]
  exact List.mem_map.mpr ⟨_, h, rfl⟩

theorem plainItems_iff {depth : Nat} {items : List Json} :
    Plain.plainItems depth items ↔ ∀ item ∈ items, item.Plain depth := by
  induction items with
  | nil => simp [Plain.plainItems]
  | cons item items ih => simp [Plain.plainItems, ih]

theorem plainMembers_iff {depth : Nat} {members : List (PyStr × Json)} :
    Plain.plainMembers depth members ↔ ∀ member ∈ members, member.2.Plain depth := by
  induction members with
  | nil => simp [Plain.plainMembers]
  | cons member members ih => simp [Plain.plainMembers, ih]

mutual

/-- A sorted document is still plain: the recursion follows the three functions that
sort values, items and members. -/
theorem Plain.sorted : (value : Json) → (depth : Nat) → value.Plain depth → value.sorted.Plain depth
  | null, _, _ => trivial
  | bool _, _, _ => trivial
  | int _, _, h => h
  | float _, _, h => h
  | str _, _, _ => trivial
  | array items, depth, h => ⟨h.1, plainItems_iff.mpr (Plain.sortedItems items (depth - 1) h.2)⟩
  | object members, depth, h => by
      refine ⟨h.1, plainMembers_iff.mpr fun member hMember => ?_⟩
      exact Plain.sortedMembers members (depth - 1) h.2 member ((sortKeys_perm _).mem_iff.mp hMember)

theorem Plain.sortedItems : (items : List Json) → (depth : Nat) → Plain.plainItems depth items →
    ∀ item ∈ Json.sorted.sortedItems items, item.Plain depth
  | [], _, _ => by simp [Json.sorted.sortedItems]
  | item :: items, depth, h => List.forall_mem_cons.mpr
      ⟨Plain.sorted item depth h.1, Plain.sortedItems items depth h.2⟩

theorem Plain.sortedMembers : (members : List (PyStr × Json)) → (depth : Nat) →
    Plain.plainMembers depth members → ∀ member ∈ Json.sorted.sortedMembers members, member.2.Plain depth
  | [], _, _ => by simp [Json.sorted.sortedMembers]
  | (_, value) :: members, depth, h => List.forall_mem_cons.mpr
      ⟨Plain.sorted value depth h.1, Plain.sortedMembers members depth h.2⟩

end

/-- No text of the value has a lone surrogate, so that the document can be encoded
in UTF-8. -/
def Encodable : Json → Prop
  | str value => ∀ c ∈ value, isScalar c = true
  | array items => encodableItems items
  | object members => encodableMembers members
  | _ => True
where
  encodableItems : List Json → Prop
    | [] => True
    | item :: items => Encodable item ∧ encodableItems items
  encodableMembers : List (PyStr × Json) → Prop
    | [] => True
    | (key, value) :: members =>
        ((∀ c ∈ key, isScalar c = true) ∧ Encodable value) ∧ encodableMembers members

theorem encodableItems_iff {items : List Json} :
    Encodable.encodableItems items ↔ ∀ item ∈ items, item.Encodable := by
  induction items with
  | nil => simp [Encodable.encodableItems]
  | cons item items ih => simp [Encodable.encodableItems, ih]

theorem encodableMembers_iff {members : List (PyStr × Json)} : Encodable.encodableMembers members ↔
    ∀ member ∈ members, (∀ c ∈ member.1, isScalar c = true) ∧ member.2.Encodable := by
  induction members with
  | nil => simp [Encodable.encodableMembers]
  | cons member members ih => simp [Encodable.encodableMembers, ih]

mutual

/-- A sorted document can still be encoded, member by member. -/
theorem Encodable.sorted : (value : Json) → value.Encodable → value.sorted.Encodable
  | null, _ => trivial
  | bool _, _ => trivial
  | int _, _ => trivial
  | float _, _ => trivial
  | str _, h => h
  | array items, h => encodableItems_iff.mpr (Encodable.sortedItems items h)
  | object members, h => encodableMembers_iff.mpr fun member hMember =>
      Encodable.sortedMembers members h member ((sortKeys_perm _).mem_iff.mp hMember)

theorem Encodable.sortedItems : (items : List Json) → encodableItems items →
    ∀ item ∈ Json.sorted.sortedItems items, item.Encodable
  | [], _ => by simp [Json.sorted.sortedItems]
  | item :: items, h => List.forall_mem_cons.mpr
      ⟨Encodable.sorted item h.1, Encodable.sortedItems items h.2⟩

theorem Encodable.sortedMembers : (members : List (PyStr × Json)) → encodableMembers members →
    ∀ member ∈ Json.sorted.sortedMembers members,
      (∀ c ∈ member.1, isScalar c = true) ∧ member.2.Encodable
  | [], _ => by simp [Json.sorted.sortedMembers]
  | (_, value) :: members, h => List.forall_mem_cons.mpr
      ⟨⟨h.1.1, Encodable.sorted value h.1.2⟩, Encodable.sortedMembers members h.2⟩

end

/-- Escapes are ASCII: what is not, is a character of the text itself. -/
theorem mem_escapeChar {c d : Nat} (h : d ∈ escapeChar c) : d = c ∨ d < 0x80 := by
  have hDigit (n : Nat) (hn : n < 16) : hexDigit n < 0x80 := by
    unfold hexDigit
    split_ifs <;> omega
  have hHigh : c < 0x20 → hexDigit (c / 16) < 0x80 := fun hc => hDigit _ (by omega)
  have hLow : hexDigit (c % 16) < 0x80 := hDigit _ (by omega)
  unfold escapeChar at h
  split_ifs at h
  all_goals
    simp only [List.mem_cons, List.not_mem_nil, or_false] at h
    omega

theorem isScalar_quote {s : PyStr} (h : ∀ c ∈ s, isScalar c = true) : ∀ c ∈ quote s, isScalar c = true := by
  intro c hc
  simp only [quote, List.mem_cons, List.mem_append, List.mem_flatMap, List.not_mem_nil, or_false] at hc
  rcases hc with rfl | ⟨d, hd, hc⟩ | rfl
  · decide
  · rcases mem_escapeChar hc with rfl | hSmall
    · exact h c hd
    · exact isScalar_of_lt hSmall
  · decide

theorem isScalar_newline (level : Nat) : ∀ c ∈ newline level, isScalar c = true := by
  intro c hc
  simp only [newline, List.mem_cons, List.mem_replicate] at hc
  rcases hc with rfl | ⟨-, rfl⟩ <;> decide

theorem isScalar_intRepr (value : Int) : ∀ c ∈ intRepr value, isScalar c = true := by
  have hDecimal (n : Nat) : ∀ c ∈ decimal n, isScalar c = true := by
    intro c hc
    have hDigit := isDigit_of_mem_decimal hc
    simp only [isDigit, Bool.and_eq_true, decide_eq_true_eq] at hDigit
    exact isScalar_of_lt (by omega)
  cases value with
  | ofNat n => exact hDecimal n
  | negSucc n => exact List.forall_mem_cons.mpr ⟨by decide, hDecimal (n + 1)⟩

section Dumps

variable (floatRepr : PyFloat → PyStr)

mutual

/-- The written form of a plain value without surrogates has none either. -/
theorem isScalar_dumpsAt : (value : Json) → (level depth : Nat) → value.Plain depth → value.Encodable →
    ∀ c ∈ dumpsAt floatRepr level value, isScalar c = true
  | null, _, _, _, _ => by simp only [dumpsAt]; decide
  | bool true, _, _, _, _ => by simp only [dumpsAt]; decide
  | bool false, _, _, _, _ => by simp only [dumpsAt]; decide
  | int value, _, _, _, _ => isScalar_intRepr value
  | float _, _, _, hPlain, _ => hPlain.elim
  | str _, _, _, _, h => isScalar_quote h
  | array [], _, _, _, _ => by simp only [dumpsAt]; decide
  | array (item :: items), level, depth, hPlain, h => by
      have hItem := isScalar_dumpsAt item (level + 1) (depth - 1) hPlain.2.1 h.1
      have hItems := isScalar_dumpsItems items (level + 1) (depth - 1) hPlain.2.2 h.2
      have hOpen : ∀ c ∈ [0x5B, 0x5D], isScalar c = true := by decide
      simp only [dumpsAt, List.mem_cons, List.mem_append, List.not_mem_nil, or_false]
      rintro c (rfl | (((hc | hc) | hc) | hc) | rfl)
      · decide
      · exact isScalar_newline _ c hc
      · exact hItem c hc
      · exact hItems c hc
      · exact isScalar_newline _ c hc
      · decide
  | object [], _, _, _, _ => by simp only [dumpsAt]; decide
  | object ((key, value) :: members), level, depth, hPlain, h => by
      have hValue := isScalar_dumpsAt value (level + 1) (depth - 1) hPlain.2.1 h.1.2
      have hMembers := isScalar_dumpsMembers members (level + 1) (depth - 1) hPlain.2.2 h.2
      simp only [dumpsAt, List.mem_cons, List.mem_append, List.not_mem_nil, or_false]
      rintro c (rfl | ((((((hc | hc) | rfl | rfl) | hc) | hc) | hc) | rfl))
      · decide
      · exact isScalar_newline _ c hc
      · exact isScalar_quote h.1.1 c hc
      · decide
      · decide
      · exact hValue c hc
      · exact hMembers c hc
      · exact isScalar_newline _ c hc
      · decide

theorem isScalar_dumpsItems : (items : List Json) → (level depth : Nat) → Plain.plainItems depth items →
    Encodable.encodableItems items → ∀ c ∈ dumpsAt.dumpsItems floatRepr level items, isScalar c = true
  | [], _, _, _, _ => by simp [dumpsAt.dumpsItems]
  | item :: items, level, depth, hPlain, h => by
      have hItem := isScalar_dumpsAt item level depth hPlain.1 h.1
      have hItems := isScalar_dumpsItems items level depth hPlain.2 h.2
      simp only [dumpsAt.dumpsItems, List.mem_cons, List.mem_append]
      rintro c (rfl | (hc | hc) | hc)
      · decide
      · exact isScalar_newline _ c hc
      · exact hItem c hc
      · exact hItems c hc

theorem isScalar_dumpsMembers : (members : List (PyStr × Json)) → (level depth : Nat) →
    Plain.plainMembers depth members → Encodable.encodableMembers members →
    ∀ c ∈ dumpsAt.dumpsMembers floatRepr level members, isScalar c = true
  | [], _, _, _, _ => by simp [dumpsAt.dumpsMembers]
  | (key, value) :: members, level, depth, hPlain, h => by
      have hValue := isScalar_dumpsAt value level depth hPlain.1 h.1.2
      have hMembers := isScalar_dumpsMembers members level depth hPlain.2 h.2
      simp only [dumpsAt.dumpsMembers, List.mem_cons, List.mem_append, List.not_mem_nil, or_false]
      rintro c (rfl | ((((hc | hc) | rfl | rfl) | hc) | hc))
      · decide
      · exact isScalar_newline _ c hc
      · exact isScalar_quote h.1.1 c hc
      · decide
      · decide
      · exact hValue c hc
      · exact hMembers c hc

end

/-- A plain value without lone surrogates can be encoded once it is written. -/
theorem exists_encodeUtf8_dumps {value : Json} {depth : Nat} (hPlain : value.Plain depth)
    (h : value.Encodable) : ∃ data, encodeUtf8 (dumpsAt floatRepr 0 value) = some data := by
  have hScalar : (dumpsAt floatRepr 0 value).all isScalar = true :=
    List.all_eq_true.mpr (isScalar_dumpsAt floatRepr value 0 depth hPlain h)
  exact ⟨_, by rw [encodeUtf8, if_pos hScalar]⟩

/-- An array is written with at least one character for each item, which bounds its
length by that of the file. -/
theorem length_le_dumpsAt_array (level : Nat) (items : List Json) :
    items.length ≤ (dumpsAt floatRepr level (array items)).length := by
  have hItems (level : Nat) (items : List Json) :
      items.length ≤ (dumpsAt.dumpsItems floatRepr level items).length := by
    induction items with
    | nil => simp
    | cons item items ih =>
        simp only [dumpsAt.dumpsItems, List.length_cons, List.length_append]
        omega
  cases items with
  | nil => simp
  | cons item items =>
      have := hItems (level + 1) items
      simp only [dumpsAt, List.length_cons, List.length_append]
      omega

/-- An object is written longer than each of its values. -/
theorem length_le_dumpsAt_object (level : Nat) {members : List (PyStr × Json)} {key : PyStr}
    {value : Json} (h : (key, value) ∈ members) :
    (dumpsAt floatRepr (level + 1) value).length ≤ (dumpsAt floatRepr level (object members)).length := by
  have hMembers (level : Nat) (members : List (PyStr × Json)) (h : (key, value) ∈ members) :
      (dumpsAt floatRepr level value).length ≤ (dumpsAt.dumpsMembers floatRepr level members).length := by
    induction members with
    | nil => cases h
    | cons member members ih =>
        obtain ⟨head, stored⟩ := member
        simp only [dumpsAt.dumpsMembers, List.length_cons, List.length_append]
        rcases List.mem_cons.mp h with hHead | hTail
        · cases hHead
          omega
        · have := ih hTail
          omega
  obtain ⟨⟨head, stored⟩, rest, rfl⟩ := List.exists_cons_of_ne_nil (List.ne_nil_of_mem h)
  simp only [dumpsAt, List.length_cons, List.length_append]
  rcases List.mem_cons.mp h with hHead | hTail
  · cases hHead
    omega
  · have := hMembers (level + 1) rest hTail
    omega

end Dumps

/-- A text has no more code points than its UTF-8 form has bytes. -/
theorem length_le_of_encodeUtf8 {s : PyStr} {data : Bytes} (h : encodeUtf8 s = some data) :
    s.length ≤ data.length := by
  unfold encodeUtf8 at h
  split at h
  · rw [Option.some.injEq] at h
    exact h ▸ length_le_flatMap_utf8Char s
  · cases h

theorem encodeUtf8_append {first second : PyStr} {data rest : Bytes} (hFirst : encodeUtf8 first = some data)
    (hSecond : encodeUtf8 second = some rest) : encodeUtf8 (first ++ second) = some (data ++ rest) := by
  unfold encodeUtf8 at *
  split at hFirst
  · split at hSecond
    · simp_all
    · cases hSecond
  · cases hFirst

/-- Text that starts as the indented text of an object does is read as UTF-8:
neither a byte order mark nor a zero byte is among the first four. -/
theorem decodeDetected_object (rest : Bytes) :
    decodeDetected (0x7B :: 0x0A :: 0x20 :: 0x20 :: rest) =
      decodeUtf8 (0x7B :: 0x0A :: 0x20 :: 0x20 :: rest) := rfl

/-- `json.loads(json.dumps(value, indent=2).encode() + b"\n")` of an object gives
the object back. -/
theorem loads_dumps (floatRepr : PyFloat → PyStr) {members : List (PyStr × Json)} {maxDepth : Nat}
    (hNil : members ≠ []) (h : (object members).Plain maxDepth) {data : Bytes}
    (hData : encodeUtf8 (dumpsAt floatRepr 0 (object members)) = some data) :
    loads maxDepth (data ++ [0x0A]) = .ok (object members) := by
  have hText : encodeUtf8 (dumpsAt floatRepr 0 (object members) ++ [0x0A]) = some (data ++ [0x0A]) :=
    encodeUtf8_append hData (by decide)
  have hStart : ∃ rest, data = 0x7B :: 0x0A :: 0x20 :: 0x20 :: rest := by
    obtain ⟨⟨key, value⟩, rest, rfl⟩ := List.exists_cons_of_ne_nil hNil
    unfold encodeUtf8 at hData
    split at hData
    · rw [Option.some.injEq] at hData
      rw [← hData, dumpsAt]
      exact ⟨_, rfl⟩
    · cases hData
  obtain ⟨rest, rfl⟩ := hStart
  simp only [List.cons_append] at hText ⊢
  rw [loads, decodeDetected_object, decodeUtf8_encodeUtf8 hText]
  simp only [loadsText_dumps floatRepr h]

end SoftwareHub.Python.Json
