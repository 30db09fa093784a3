/-!
# Tables keyed by names

A table holds at most one entry per name, in the order of the names by code point. The order is
part of the type, so two tables with the same entries are the same table (`Table.ext_get?`).
-/

namespace Skirmish

/-- Entries with strictly increasing names. -/
structure Table (α : Type) where
  entries : List (String × α)
  sorted : entries.Pairwise (fun a b => a.1 < b.1)
  deriving DecidableEq

namespace Table

variable {α β : Type}

/-- No entries. -/
def empty : Table α := ⟨[], .nil⟩

instance : Inhabited (Table α) := ⟨empty⟩

/-- The entry called `name`, among sorted entries. -/
def find (name : String) : List (String × α) → Option α
  | [] => none
  | (k, v) :: rest => if k = name then some v else find name rest

/-- Puts an entry in its place among sorted entries. -/
def place (name : String) (value : α) : List (String × α) → List (String × α)
  | [] => [(name, value)]
  | (k, v) :: rest =>
    if name < k then (name, value) :: (k, v) :: rest
    else if name = k then (name, value) :: rest
    else (k, v) :: place name value rest

theorem mem_place {name : String} {value : α} {l : List (String × α)} {e : String × α}
    (h : e ∈ place name value l) : e = (name, value) ∨ e ∈ l := by
  induction l with
  | nil => exact .inl (by simpa [place] using h)
  | cons a rest ih =>
    simp only [place] at h
    split at h
    · simpa using h
    · split at h <;> simp only [List.mem_cons] at h ⊢
      · exact h.imp_right .inr
      · rcases h with h | h
        · exact .inr (.inl h)
        · exact (ih h).imp_right .inr

theorem sorted_place (name : String) (value : α) {l : List (String × α)}
    (h : l.Pairwise (fun a b => a.1 < b.1)) :
    (place name value l).Pairwise (fun a b => a.1 < b.1) := by
  induction l with
  | nil => simp [place]
  | cons a rest ih =>
    have ⟨ha, hrest⟩ := List.pairwise_cons.1 h
    simp only [place]
    split
    · next hlt =>
      refine List.pairwise_cons.2 ⟨fun b hb => ?_, h⟩
      rcases List.mem_cons.1 hb with rfl | hb
      · exact hlt
      · exact String.lt_trans hlt (ha b hb)
    · next hnlt =>
      split
      · next heq => exact List.pairwise_cons.2 ⟨fun b hb => heq ▸ ha b hb, hrest⟩
      · next hne =>
        refine List.pairwise_cons.2 ⟨fun b hb => ?_, ih hrest⟩
        rcases mem_place hb with rfl | hb
        · exact Std.lt_of_le_of_ne (String.not_lt.1 hnlt) (Ne.symm hne)
        · exact ha b hb

/-- Adds an entry, or replaces the one of the same name. -/
def insert (t : Table α) (name : String) (value : α) : Table α :=
  ⟨place name value t.entries, sorted_place name value t.sorted⟩

/-- The entry called `name`. -/
def get? (t : Table α) (name : String) : Option α := find name t.entries

/-- Whether there is an entry called `name`. -/
def contains (t : Table α) (name : String) : Bool := (t.get? name).isSome

/-- Removes the entry called `name`, if any. -/
def erase (t : Table α) (name : String) : Table α :=
  ⟨t.entries.filter (·.1 ≠ name), t.sorted.filter _⟩

/-- Changes every value. -/
def map (f : String → α → β) (t : Table α) : Table β :=
  ⟨t.entries.map fun e => (e.1, f e.1 e.2), List.pairwise_map.2 t.sorted⟩

/-- Changes the entry called `name`, if any. -/
def modify (t : Table α) (name : String) (f : α → α) : Table α :=
  t.map fun k v => if k = name then f v else v

/-- Names in order. -/
def names (t : Table α) : List String := t.entries.map (·.1)

/-- Number of entries. -/
def size (t : Table α) : Nat := t.entries.length

/-- The table of a list of entries, in which a later entry replaces an earlier one. -/
def ofList (l : List (String × α)) : Table α := l.foldl (fun t e => t.insert e.1 e.2) empty

/-- All entries of `u` put into `t`. -/
def override (t u : Table α) : Table α := u.entries.foldl (fun t e => t.insert e.1 e.2) t

/-! ## Each operation through `get?` -/

@[ext] theorem ext {t u : Table α} (h : t.entries = u.entries) : t = u := by
  cases t; cases u; cases h; rfl

@[simp] theorem get?_empty (name : String) : (empty : Table α).get? name = none := rfl

theorem find_place (name other : String) (value : α) {l : List (String × α)}
    (h : l.Pairwise (fun a b => a.1 < b.1)) :
    find other (place name value l) = if name = other then some value else find other l := by
  induction l with
  | nil => simp [place, find]
  | cons a rest ih =>
    obtain ⟨k, v⟩ := a
    have hrest := (List.pairwise_cons.1 h).2
    simp only [place]
    split
    · simp [find]
    · split
      · next heq => subst heq; simp only [find]; split <;> rfl
      · next hne =>
        simp only [find, ih hrest]
        split
        · next hk => subst hk; simp [hne]
        · rfl

@[simp] theorem get?_insert (t : Table α) (name other : String) (value : α) :
    (t.insert name value).get? other = if name = other then some value else t.get? other :=
  find_place name other value t.sorted

theorem find_filter_ne (name other : String) (l : List (String × α)) :
    find other (l.filter (·.1 ≠ name)) = if name = other then none else find other l := by
  induction l with
  | nil => simp [find]
  | cons a rest ih =>
    obtain ⟨k, v⟩ := a
    by_cases hk : k = name
    · subst hk
      rw [List.filter_cons_of_neg (by simp), ih]
      by_cases ho : k = other <;> simp [find, ho]
    · rw [List.filter_cons_of_pos (by simpa using hk)]
      simp only [find, ih]
      split
      · next h => subst h; simp [Ne.symm hk]
      · rfl

@[simp] theorem get?_erase (t : Table α) (name other : String) :
    (t.erase name).get? other = if name = other then none else t.get? other :=
  find_filter_ne name other t.entries

@[simp] theorem get?_map (f : String → α → β) (t : Table α) (name : String) :
    (t.map f).get? name = (t.get? name).map (f name) := by
  simp only [get?, map]
  induction t.entries with
  | nil => rfl
  | cons a rest ih =>
    simp only [List.map_cons, find]
    split
    · next h => simp [h]
    · exact ih

@[simp] theorem get?_modify (t : Table α) (name other : String) (f : α → α) :
    (t.modify name f).get? other = if other = name then (t.get? other).map f else t.get? other := by
  simp only [modify, get?_map]
  split <;> cases t.get? other <;> rfl

@[simp] theorem names_map (f : String → α → β) (t : Table α) : (t.map f).names = t.names := by
  simp [names, map, Function.comp_def]

theorem mem_entries_of_find {name : String} {value : α} {l : List (String × α)}
    (h : find name l = some value) : (name, value) ∈ l := by
  induction l with
  | nil => cases h
  | cons a rest ih =>
    simp only [find] at h
    split at h
    · next hk => cases h; subst hk; exact List.mem_cons_self
    · exact List.mem_cons_of_mem _ (ih h)

theorem find_of_mem_entries {name : String} {value : α} {l : List (String × α)}
    (hs : l.Pairwise (fun a b => a.1 < b.1)) (h : (name, value) ∈ l) :
    find name l = some value := by
  induction l with
  | nil => cases h
  | cons a rest ih =>
    have ⟨ha, hrest⟩ := List.pairwise_cons.1 hs
    rcases List.mem_cons.1 h with rfl | h
    · simp [find]
    · have hlt := ha _ h
      have hne : a.1 ≠ name := fun e => String.lt_irrefl _ (e ▸ hlt : name < name)
      simp only [find, hne, if_false]
      exact ih hrest h

theorem get?_eq_some_iff {t : Table α} {name : String} {value : α} :
    t.get? name = some value ↔ (name, value) ∈ t.entries :=
  ⟨mem_entries_of_find, find_of_mem_entries t.sorted⟩

theorem find_eq_none_of_forall_lt {name : String} {l : List (String × α)}
    (h : ∀ e ∈ l, name < e.1) : find name l = none := by
  induction l with
  | nil => rfl
  | cons a rest ih =>
    have hne : a.1 ≠ name := fun e =>
      String.lt_irrefl name (by simpa [e] using h a List.mem_cons_self)
    simp only [find, hne, if_false]
    exact ih fun e he => h e (List.mem_cons_of_mem _ he)

theorem entries_eq_of_find {l m : List (String × α)} (hl : l.Pairwise (fun a b => a.1 < b.1))
    (hm : m.Pairwise (fun a b => a.1 < b.1)) (h : ∀ name, find name l = find name m) : l = m := by
  induction l generalizing m with
  | nil =>
    cases m with
    | nil => rfl
    | cons b m => have := h b.1; simp [find] at this
  | cons a l ih =>
    cases m with
    | nil => have := h a.1; simp [find] at this
    | cons b m =>
      have ⟨ha, hl'⟩ := List.pairwise_cons.1 hl
      have ⟨hb, hm'⟩ := List.pairwise_cons.1 hm
      have nlt : ∀ (x y : String × α) (r s : List (String × α)), (∀ e ∈ s, y.1 < e.1) →
          find x.1 (x :: r) = find x.1 (y :: s) → ¬x.1 < y.1 := by
        intro x y r s hs he hlt
        rw [find_eq_none_of_forall_lt (l := y :: s)] at he
        · simp [find] at he
        · intro e hmem
          rcases List.mem_cons.1 hmem with rfl | hmem
          · exact hlt
          · exact String.lt_trans hlt (hs e hmem)
      have hab : a.1 = b.1 := Std.le_antisymm
        (String.not_lt.1 (nlt b a m l ha (h b.1).symm)) (String.not_lt.1 (nlt a b l m hb (h a.1)))
      have hval : a = b := by
        have := h a.1
        simp only [find, hab, if_true, Option.some.injEq] at this
        exact Prod.ext hab this
      subst hval
      refine congrArg (a :: ·) (ih hl' hm' fun name => ?_)
      by_cases hn : a.1 = name
      · subst hn
        rw [find_eq_none_of_forall_lt ha, find_eq_none_of_forall_lt hb]
      · have := h name
        simpa [find, hn] using this

/-- A table is what its look-ups say. -/
theorem ext_get? {t u : Table α} (h : ∀ name, t.get? name = u.get? name) : t = u :=
  ext (entries_eq_of_find t.sorted u.sorted h)

/-- To change an entry is to replace it by the changed one. -/
theorem modify_eq_insert {t : Table α} {name : String} {value : α} (h : t.get? name = some value)
    (f : α → α) : t.modify name f = t.insert name (f value) :=
  ext_get? fun other => by
    rw [get?_modify, get?_insert]
    by_cases ho : other = name
    · rw [if_pos ho, if_pos ho.symm, ho, h]
      rfl
    · rw [if_neg ho, if_neg (Ne.symm ho)]

theorem modify_insert (t : Table α) (name : String) (value : α) (f : α → α) :
    (t.insert name value).modify name f = t.insert name (f value) :=
  ext_get? fun other => by
    rw [get?_modify, get?_insert, get?_insert]
    by_cases h : name = other
    · rw [if_pos h, if_pos h, if_pos h.symm]
      rfl
    · rw [if_neg h, if_neg h, if_neg (Ne.symm h)]

theorem contains_insert (t : Table α) (name other : String) (value : α) :
    (t.insert name value).contains other = (decide (name = other) || t.contains other) := by
  unfold contains
  rw [get?_insert]
  by_cases h : name = other <;> simp [h]

/-- Of two entries of a name, the one that is put in stays. -/
theorem get?_override (t u : Table α) (name : String) :
    (t.override u).get? name = (u.get? name).or (t.get? name) := by
  obtain ⟨entries, sorted⟩ := u
  unfold override
  induction entries generalizing t with
  | nil => rfl
  | cons e rest ih =>
    obtain ⟨he, hrest⟩ := List.pairwise_cons.1 sorted
    rw [List.foldl_cons, ih _ hrest, get?_insert]
    simp only [get?, find]
    by_cases h : e.1 = name
    · subst h
      rw [if_pos rfl, if_pos rfl, find_eq_none_of_forall_lt he]
      rfl
    · rw [if_neg h, if_neg h]

end Table

end Skirmish
