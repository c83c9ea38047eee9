import ManagementShell.Proofs.Order
import ManagementShell.Variable.Store

/-
This file shows what a table, and with it the store of variables, holds after a change.
-/

namespace ManagementShell

namespace Table

variable {α : Type}

theorem get?_cons (entry : Text × α) (table : Table α) (name : Text) :
    get? (entry :: table) name = if name = entry.1 then some entry.2 else get? table name := by
  rw [get?, get?, List.lookup_cons]
  by_cases same : name = entry.1
  · simp [same]
  · rw [if_neg same, beq_false_of_ne same]

theorem get?_insert (table : Table α) (name other : Text) (value : α) :
    (table.insert name value).get? other = if other = name then some value else table.get? other := by
  induction table with
  | nil => rw [insert, get?_cons]
  | cons entry rest inductionHypothesis =>
      unfold insert
      split
      · rename_i same
        simp only [get?_cons, same]
        split <;> rfl
      · rename_i differs
        split
        · rw [get?_cons]
        · rw [get?_cons, get?_cons, inductionHypothesis]
          split
          · rename_i here
            rw [here, if_neg differs]
          · rfl

theorem get?_erase (table : Table α) (name other : Text) :
    (table.erase name).get? other = if other = name then none else table.get? other := by
  induction table with
  | nil => simp [erase, get?]
  | cons entry rest inductionHypothesis =>
      unfold erase at *
      rw [List.filter_cons]
      split
      · rename_i differs
        rw [get?_cons, get?_cons, inductionHypothesis]
        split
        · rename_i here
          rw [here, if_neg (by simpa using differs)]
        · rfl
      · rename_i same
        have same : entry.1 = name := by simpa using same
        rw [inductionHypothesis, get?_cons, same]
        split <;> rfl

/-- The names are in ascending order, so that each of them has one value. -/
def Ordered (table : Table α) : Prop := table.Pairwise fun first second => first.1 < second.1

theorem eq_or_mem_of_mem_insert {table : Table α} {name : Text} {value : α} {entry : Text × α}
    (member : entry ∈ table.insert name value) : entry = (name, value) ∨ entry ∈ table := by
  induction table with
  | nil => simpa [insert] using member
  | cons first rest inductionHypothesis =>
      unfold insert at member
      split at member
      · exact (List.mem_cons.mp member).imp_right (.tail _)
      · split at member
        · exact List.mem_cons.mp member
        · rcases List.mem_cons.mp member with rfl | isLater
          · exact .inr List.mem_cons_self
          · exact (inductionHypothesis isLater).imp_right (.tail _)

theorem mem_insert {table : Table α} (ordered : table.Ordered) {name : Text} {value : α}
    {entry : Text × α} (member : entry ∈ table.insert name value) :
    entry = (name, value) ∨ entry ∈ table ∧ entry.1 ≠ name := by
  induction table with
  | nil => simpa [insert] using member
  | cons first rest inductionHypothesis =>
      obtain ⟨above, later⟩ := List.pairwise_cons.mp ordered
      unfold insert at member
      split at member
      · rename_i same
        rcases List.mem_cons.mp member with isNew | isLater
        · exact .inl isNew
        · exact .inr ⟨.tail _ isLater, same ▸ (above entry isLater).ne'⟩
      · rename_i differs
        split at member
        · rename_i precedes
          rw [Text.precedes_iff_lt] at precedes
          rcases List.mem_cons.mp member with isNew | isOld
          · exact .inl isNew
          · refine .inr ⟨isOld, ?_⟩
            rcases List.mem_cons.mp isOld with rfl | isLater
            · exact differs
            · exact (precedes.trans (above entry isLater)).ne'
        · rcases List.mem_cons.mp member with rfl | isLater
          · exact .inr ⟨List.mem_cons_self, differs⟩
          · rcases inductionHypothesis later isLater with isNew | ⟨isOld, differsToo⟩
            · exact .inl isNew
            · exact .inr ⟨.tail _ isOld, differsToo⟩

theorem Ordered.insert {table : Table α} (ordered : table.Ordered) (name : Text) (value : α) :
    (table.insert name value).Ordered := by
  induction table with
  | nil => simp [Table.insert, Ordered]
  | cons first rest inductionHypothesis =>
      obtain ⟨above, later⟩ := List.pairwise_cons.mp ordered
      unfold Table.insert
      split
      · rename_i same
        exact List.pairwise_cons.mpr ⟨fun entry member => same ▸ above entry member, later⟩
      · rename_i differs
        split
        · rename_i precedes
          rw [Text.precedes_iff_lt] at precedes
          refine List.pairwise_cons.mpr ⟨fun entry member => ?_, ordered⟩
          rcases List.mem_cons.mp member with rfl | isLater
          · exact precedes
          · exact precedes.trans (above entry isLater)
        · rename_i follows
          rw [Text.precedes_iff_lt] at follows
          refine List.pairwise_cons.mpr ⟨fun entry member => ?_, inductionHypothesis later⟩
          rcases mem_insert later member with rfl | ⟨isOld, _⟩
          · exact lt_of_le_of_ne (not_lt.mp follows) differs
          · exact above entry isOld

theorem Ordered.erase {table : Table α} (ordered : table.Ordered) (name : Text) :
    (table.erase name).Ordered := List.Pairwise.filter _ ordered

theorem ordered_ofList (entries : List (Text × α)) : (ofList entries).Ordered := by
  unfold ofList
  have folded {table : Table α} (ordered : table.Ordered) :
      (entries.foldl (fun table entry => table.insert entry.1 entry.2) table).Ordered := by
    induction entries generalizing table with
    | nil => exact ordered
    | cons first rest inductionHypothesis => exact inductionHypothesis (ordered.insert _ _)
  exact folded .nil

theorem mem_of_mem_ofList {entries : List (Text × α)} {entry : Text × α}
    (member : entry ∈ ofList entries) : entry ∈ entries := by
  have folded (entries : List (Text × α)) {table : Table α} (isFolded : entry ∈ entries.foldl
      (fun table entry => table.insert entry.1 entry.2) table) : entry ∈ entries ∨ entry ∈ table := by
    induction entries generalizing table with
    | nil => exact .inr isFolded
    | cons first rest inductionHypothesis =>
        rcases inductionHypothesis isFolded with isLater | isInserted
        · exact .inl (.tail _ isLater)
        · rcases eq_or_mem_of_mem_insert isInserted with rfl | isOld
          · exact .inl List.mem_cons_self
          · exact .inr isOld
  exact (folded entries member).resolve_right List.not_mem_nil

theorem get?_ofList {entries : List (Text × α)} (distinct : (entries.map Prod.fst).Nodup)
    {entry : Text × α} (listed : entry ∈ entries) :
    (ofList entries).get? entry.1 = some entry.2 := by
  induction entries using List.reverseRecOn with
  | nil => cases listed
  | append_singleton entries last inductionHypothesis =>
      have added : ofList (entries ++ [last]) = (ofList entries).insert last.1 last.2 :=
        List.foldl_concat ..
      rw [List.map_append, List.nodup_append] at distinct
      obtain ⟨earlier, -, apart⟩ := distinct
      rw [added, get?_insert]
      rcases List.mem_append.mp listed with isEarlier | isLast
      · rw [if_neg (apart _ (List.mem_map_of_mem isEarlier) _ (List.mem_singleton_self _)),
          inductionHypothesis earlier isEarlier]
      · rw [List.mem_singleton.mp isLast, if_pos rfl]

theorem Ordered.get? {table : Table α} (ordered : table.Ordered) {entry : Text × α}
    (member : entry ∈ table) : table.get? entry.1 = some entry.2 := by
  induction table with
  | nil => cases member
  | cons first rest inductionHypothesis =>
      obtain ⟨above, later⟩ := List.pairwise_cons.mp ordered
      rw [get?_cons]
      rcases List.mem_cons.mp member with rfl | isLater
      · rw [if_pos rfl]
      · rw [if_neg (above entry isLater).ne', inductionHypothesis later isLater]

theorem mem_of_get? {table : Table α} {name : Text} {value : α}
    (found : table.get? name = some value) : (name, value) ∈ table := by
  rw [get?, List.lookup_eq_some_iff] at found
  obtain ⟨before, after, isTable, _⟩ := found
  simp [isTable]

end Table

namespace Store

variable (store : Store) (name other : Text)

@[simp] theorem stored?_put (value : Value) :
    (store.put name value).stored? other = if other = name then some value else store.stored? other :=
  Table.get?_insert _ _ _ _

@[simp] theorem stored?_remove :
    (store.remove name).stored? other = if other = name then none else store.stored? other :=
  Table.get?_erase _ _ _

end Store

end ManagementShell
