import Mathlib.Data.List.AList

/-!
# Maps

A Go map is an association list with distinct keys, in the order one
iteration over it happens to visit. What depends on that order has to be
proved not to matter; what is looked up does not see it.
-/

namespace McRouter

/-- `map[α]β`. -/
abbrev GoMap (α β : Type) := AList fun _ : α => β

namespace GoMap

variable {α β : Type} [DecidableEq α]

/-- Maps are compared by their entries. The instance of `AList` rewrites a
proof and does not evaluate. -/
instance decidableEq [DecidableEq β] : DecidableEq (GoMap α β) := fun m m' =>
  decidable_of_iff (m.entries = m'.entries) AList.ext_iff.symm

/-- What is left after deleting, in an iteration over the map, every entry
where `keep` is false. -/
def filter (keep : α → β → Bool) (m : GoMap α β) : GoMap α β where
  entries := m.entries.filter fun e => keep e.1 e.2
  nodupKeys := m.nodupKeys.sublist List.filter_sublist

/-- `len(m)`. -/
def len (m : GoMap α β) : ℕ := m.entries.length

/-- The values in the order of an iteration. -/
def values (m : GoMap α β) : List β := m.entries.map Sigma.snd

theorem mem_entries {m : GoMap α β} {a : α} {b : β} :
    (⟨a, b⟩ : Σ _ : α, β) ∈ m.entries ↔ m.lookup a = some b :=
  (AList.mem_lookup_iff (s := m)).symm

/-- Deleting while iterating deletes exactly the entries that are not kept. -/
@[simp] theorem lookup_filter (keep : α → β → Bool) (m : GoMap α β) (a : α) :
    (filter keep m).lookup a = (m.lookup a).filter (keep a) := by
  refine Option.ext fun b => ?_
  rw [← mem_entries, Option.filter_eq_some_iff, ← mem_entries]
  simp [filter]

theorem mem_values {m : GoMap α β} {b : β} : b ∈ m.values ↔ ∃ a, m.lookup a = some b := by
  simp only [values, List.mem_map, ← mem_entries]
  constructor
  · rintro ⟨⟨a, c⟩, h, rfl⟩
    exact ⟨a, h⟩
  · rintro ⟨a, h⟩
    exact ⟨⟨a, b⟩, h, rfl⟩

/-- What is there after a key is deleted. -/
theorem lookup_erase (m : GoMap α β) (a a' : α) :
    (m.erase a').lookup a = if a = a' then none else m.lookup a := by
  split_ifs with ha
  · rw [ha, AList.lookup_erase]
  · exact AList.lookup_erase_ne ha

/-- What is there after an assignment. -/
theorem lookup_insert (m : GoMap α β) (a a' : α) (b : β) :
    (m.insert a' b).lookup a = if a = a' then some b else m.lookup a := by
  split_ifs with ha
  · rw [ha, AList.lookup_insert]
  · exact AList.lookup_insert_ne ha

theorem lookup_of_erase {m : GoMap α β} {a a' : α} {b : β}
    (h : (m.erase a').lookup a = some b) : m.lookup a = some b := by
  rw [lookup_erase] at h
  split_ifs at h
  exact h

theorem lookup_insert_cases {m : GoMap α β} {a a' : α} {b b' : β}
    (h : (m.insert a' b').lookup a = some b) : m.lookup a = some b ∨ (a = a' ∧ b = b') := by
  rw [lookup_insert] at h
  split_ifs at h with ha
  · exact Or.inr ⟨ha, (Option.some.inj h).symm⟩
  · exact Or.inl h

/-- An assignment to a new key adds an entry. -/
theorem len_insert_of_absent {m : GoMap α β} {a : α} (b : β) (h : m.lookup a = none) :
    len (m.insert a b) = len m + 1 := by
  have hmem : a ∉ m := AList.lookup_eq_none.mp h
  rw [len, AList.entries_insert_of_notMem hmem, List.length_cons, len]

theorem len_erase_le (m : GoMap α β) (a : α) : len (m.erase a) ≤ len m :=
  (List.kerase_sublist a m.entries).length_le

omit [DecidableEq α] in
theorem len_filter_le (keep : α → β → Bool) (m : GoMap α β) : len (filter keep m) ≤ len m :=
  List.length_filter_le _ _

omit [DecidableEq α] in
theorem len_eq_length_keys (m : GoMap α β) : len m = m.keys.length := by
  rw [len, AList.keys, List.keys, List.length_map]

theorem mem_keys_iff {m : GoMap α β} {a : α} : a ∈ m.keys ↔ ∃ b, m.lookup a = some b := by
  rw [← AList.mem_keys, ← AList.lookup_isSome, Option.isSome_iff_exists]

/-- Deleting a key that is there takes one entry away. -/
theorem len_erase_of_present {m : GoMap α β} {a : α} {b : β} (h : m.lookup a = some b) :
    len (m.erase a) + 1 = len m := by
  have hmem : a ∈ m.keys := mem_keys_iff.mpr ⟨b, h⟩
  have hpos : 0 < m.keys.length := List.length_pos_of_mem hmem
  rw [len_eq_length_keys, len_eq_length_keys, AList.keys_erase, List.length_erase_of_mem hmem]
  omega

/-- An assignment to a key that is there leaves their number as it is. -/
theorem len_insert_of_present {m : GoMap α β} {a : α} {b : β} (b' : β) (h : m.lookup a = some b) :
    len (m.insert a b') = len m := by
  have herase := len_erase_of_present h
  rw [← herase, len, AList.entries_insert, List.length_cons]
  rfl

/-- The entries of two maps with the same values, up to their order. -/
theorem perm_of_lookup_eq {m m' : GoMap α β} (h : ∀ a, m.lookup a = m'.lookup a) :
    m.entries.Perm m'.entries := by
  refine (List.perm_ext_iff_of_nodup m.nodupKeys.nodup m'.nodupKeys.nodup).mpr ?_
  rintro ⟨a, b⟩
  rw [mem_entries, mem_entries, h]

/-- The entries with one of them in front. -/
theorem perm_erase {m : GoMap α β} {a : α} {b : β} (h : m.lookup a = some b) :
    m.values.Perm (b :: values (m.erase a)) := by
  have hperm : m.entries.Perm ((m.erase a).insert a b).entries := by
    refine perm_of_lookup_eq fun x => ?_
    rw [lookup_insert, lookup_erase]
    split_ifs with hx
    · rw [hx, h]
    · rfl
  rw [AList.entries_insert_of_notMem (AList.lookup_eq_none.mp (AList.lookup_erase _ _))] at hperm
  exact hperm.map Sigma.snd

/-- An assignment to a new key puts the value in front. -/
theorem values_insert_of_absent {m : GoMap α β} {a : α} (b : β) (h : m.lookup a = none) :
    values (m.insert a b) = b :: m.values := by
  rw [values, AList.entries_insert_of_notMem (AList.lookup_eq_none.mp h)]
  rfl

end GoMap

end McRouter
