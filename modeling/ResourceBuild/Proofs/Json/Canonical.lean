import ResourceBuild.Proofs.Json.Bounded

/-!
# Objects with each key once

Dropping the repeated keys of a value leaves objects that have each key once, and such values as
they are. Setting a key does not repeat one.
-/

namespace ResourceBuild

namespace Members

/-! ### Setting a key -/

lemma mem_insert {key : String} {v : Json} {ms : Members} {m : String × Json}
    (h : m ∈ insert key v ms) : m = (key, v) ∨ m ∈ ms := by
  fun_induction insert key v ms with
  | case1 => simpa using h
  | case2 w ms =>
    rcases List.mem_cons.mp h with rfl | hm
    · exact Or.inl rfl
    · exact Or.inr (List.mem_cons_of_mem _ hm)
  | case3 k w ms hne ih =>
    rcases List.mem_cons.mp h with rfl | hm
    · exact Or.inr List.mem_cons_self
    · rcases ih hm with hm | hm
      · exact Or.inl hm
      · exact Or.inr (List.mem_cons_of_mem _ hm)

/-- A new key goes to the end. -/
lemma insert_of_notMem {key : String} {v : Json} {ms : Members} (h : key ∉ ms.keys) :
    insert key v ms = ms ++ [(key, v)] := by
  fun_induction insert key v ms with
  | case1 => rfl
  | case2 w ms => exact absurd (by simp [keys]) h
  | case3 k w ms hne ih =>
    rw [ih (fun hmem => h (List.mem_cons_of_mem _ hmem)), List.cons_append]

lemma nodup_keys_insert {key : String} {v : Json} {ms : Members} (h : ms.keys.Nodup) :
    (insert key v ms).keys.Nodup := by
  rw [keys_insert]
  split_ifs with hmem
  · exact h
  · rw [List.nodup_append]
    refine ⟨h, List.nodup_singleton key, ?_⟩
    rintro k hk l hl rfl
    exact hmem (List.mem_singleton.mp hl ▸ hk)

/-- A key that is set twice keeps its place and has the second value. -/
lemma insert_insert (key : String) (v w : Json) (ms : Members) :
    insert key w (insert key v ms) = insert key w ms := by
  fun_induction insert key v ms with
  | case1 => simp [insert]
  | case2 => simp [insert]
  | case3 k u ms h ih => simp [insert, h, ih]

/-- The members of other keys stay, in their order. -/
lemma filter_insert (key : String) (v : Json) (ms : Members) :
    (insert key v ms).filter (fun m => m.1 ≠ key) = ms.filter (fun m => m.1 ≠ key) := by
  fun_induction insert key v ms with
  | case1 => simp
  | case2 => simp
  | case3 k u ms h ih => simpa [List.filter_cons, h] using ih

/-! ### Dropping repeated keys -/

lemma nodup_keys_foldl_insert {ms acc : Members} (h : acc.keys.Nodup) :
    (ms.foldl (fun acc m => insert m.1 m.2 acc) acc).keys.Nodup := by
  induction ms generalizing acc with
  | nil => exact h
  | cons m ms ih => exact ih (nodup_keys_insert h)

/-- Each key is kept once. -/
theorem nodup_keys_ofList (ms : Members) : (ofList ms).keys.Nodup :=
  nodup_keys_foldl_insert List.nodup_nil

lemma mem_foldl_insert {ms acc : Members} {m : String × Json}
    (h : m ∈ ms.foldl (fun acc m => insert m.1 m.2 acc) acc) : m ∈ acc ∨ m ∈ ms := by
  induction ms generalizing acc with
  | nil => exact Or.inl h
  | cons n ms ih =>
    rcases ih h with hm | hm
    · rcases mem_insert hm with rfl | hm
      · exact Or.inr List.mem_cons_self
      · exact Or.inl hm
    · exact Or.inr (List.mem_cons_of_mem n hm)

lemma mem_ofList {ms : Members} {m : String × Json} (h : m ∈ ofList ms) : m ∈ ms := by
  rcases mem_foldl_insert h with hm | hm
  · cases hm
  · exact hm

lemma foldl_insert_of_nodup {ms acc : Members} (h : (acc ++ ms).keys.Nodup) :
    ms.foldl (fun acc m => insert m.1 m.2 acc) acc = acc ++ ms := by
  induction ms generalizing acc with
  | nil => simp
  | cons m ms ih =>
    have hnew : m.1 ∉ acc.keys := by
      intro hmem
      rw [keys, List.map_append, List.map_cons, List.nodup_append] at h
      exact h.2.2 m.1 hmem m.1 List.mem_cons_self rfl
    rw [List.foldl_cons, insert_of_notMem hnew, ih (by simpa using h), List.append_assoc,
      List.singleton_append]

/-- Members without repeated keys are kept as they are. -/
theorem ofList_of_nodup {ms : Members} (h : ms.keys.Nodup) : ofList ms = ms :=
  foldl_insert_of_nodup h

end Members

namespace Json

/-! ### Values -/

/-- Whether every object in a value has each key once. -/
inductive Distinct : Json → Prop where
  | null : Distinct .null
  | boolean (b : Bool) : Distinct (.boolean b)
  | number (n : Number) : Distinct (.number n)
  | text (s : String) : Distinct (.text s)
  | array {xs : List Json} (hxs : ∀ x ∈ xs, Distinct x) : Distinct (.array xs)
  | object {ms : Members} (hkeys : ms.keys.Nodup) (hms : ∀ m ∈ ms, Distinct m.2) :
      Distinct (.object ms)

lemma canonicalItems_eq_map (xs : List Json) : canonicalItems xs = xs.map canonical := by
  induction xs with
  | nil => rfl
  | cons x xs ih => rw [canonicalItems, ih, List.map_cons]

lemma canonicalMembers_eq_map (ms : Members) :
    canonicalMembers ms = ms.map fun m => (m.1, m.2.canonical) := by
  induction ms with
  | nil => rfl
  | cons m ms ih => rw [canonicalMembers, ih, List.map_cons]

/-- A bounded value stays bounded when its repeated keys are dropped, and is free of them. -/
theorem Bounded.canonical {depth : Nat} {v : Json} (h : Bounded depth v) :
    Bounded depth v.canonical ∧ Distinct v.canonical := by
  induction h with
  | null => exact ⟨.null, .null⟩
  | boolean b => exact ⟨.boolean b, .boolean b⟩
  | number hn => exact ⟨.number hn, .number _⟩
  | text s => exact ⟨.text s, .text s⟩
  | array hxs ih =>
    rw [Json.canonical, canonicalItems_eq_map]
    constructor
    · apply Bounded.array
      rw [List.forall_mem_map]
      exact fun x hx => (ih x hx).1
    · apply Distinct.array
      rw [List.forall_mem_map]
      exact fun x hx => (ih x hx).2
  | object hms ih =>
    rw [Json.canonical, canonicalMembers_eq_map]
    constructor
    · apply Bounded.object
      intro m hm
      -- a value that replaces another under its key is one of those that were there
      obtain ⟨m', hm', rfl⟩ := List.mem_map.mp (Members.mem_ofList hm)
      exact (ih m' hm').1
    · apply Distinct.object (Members.nodup_keys_ofList _)
      intro m hm
      obtain ⟨m', hm', rfl⟩ := List.mem_map.mp (Members.mem_ofList hm)
      exact (ih m' hm').2

/-- A value without repeated keys is kept as it is. -/
theorem Distinct.canonical_eq {v : Json} (h : Distinct v) : v.canonical = v := by
  induction h with
  | null => rfl
  | boolean b => rfl
  | number n => rfl
  | text s => rfl
  | array hxs ih => rw [canonical, canonicalItems_eq_map, List.map_congr_left ih, List.map_id']
  | object hkeys hms ih =>
    have hmap : ∀ m ∈ _, ((m.1, m.2.canonical) : String × Json) = m :=
      fun m hm => Prod.ext rfl (ih m hm)
    rw [canonical, canonicalMembers_eq_map, List.map_congr_left hmap, List.map_id',
      Members.ofList_of_nodup hkeys]

/-! ### Setting the value of a key -/

lemma Bounded.insert {depth : Nat} {ms : Members} {key : String} {v : Json}
    (h : Bounded (depth + 1) (.object ms)) (hv : Bounded depth v) :
    Bounded (depth + 1) (.object (Members.insert key v ms)) := by
  cases h with
  | object hms =>
    apply Bounded.object
    intro m hm
    rcases Members.mem_insert hm with rfl | hm
    · exact hv
    · exact hms m hm

lemma Distinct.insert {ms : Members} {key : String} {v : Json} (h : Distinct (.object ms))
    (hv : Distinct v) : Distinct (.object (Members.insert key v ms)) := by
  cases h with
  | object hkeys hms =>
    apply Distinct.object (Members.nodup_keys_insert hkeys)
    intro m hm
    rcases Members.mem_insert hm with rfl | hm
    · exact hv
    · exact hms m hm

end Json

end ResourceBuild
