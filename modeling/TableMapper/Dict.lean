/-!
# Dictionaries

A finite map from texts, kept as a list in strictly increasing order of the
keys (the order of code points, which is the order of their UTF-8 bytes).  The
order is part of the type, so two dictionaries with the same contents are equal
and listing one always gives the keys in order.
-/

namespace TableMapper

/-- A finite map from texts, listed in the order of its keys. -/
structure Dict (α : Type) where
  entries : List (String × α)
  sorted : entries.Pairwise (fun a b => a.1 < b.1)
  deriving DecidableEq, Repr

namespace Dict

variable {α : Type}

/-- The dictionary without entries. -/
def empty : Dict α := ⟨[], .nil⟩

/-- Put `v` at `k` in a sorted list, in place of what was there. -/
def insertEntry (k : String) (v : α) : List (String × α) → List (String × α)
  | [] => [(k, v)]
  | e :: es =>
    if k < e.1 then (k, v) :: e :: es
    else if k = e.1 then (k, v) :: es
    else e :: insertEntry k v es

/-- An entry of the list after an insertion is the new one or was there. -/
theorem mem_insertEntry {k : String} {v : α} {e : String × α} {es : List (String × α)}
    (h : e ∈ insertEntry k v es) : e = (k, v) ∨ e ∈ es := by
  induction es with
  | nil => simpa [insertEntry] using h
  | cons d ds ih =>
    unfold insertEntry at h
    split at h
    · simpa using h
    · split at h
      · rcases List.mem_cons.1 h with h | h
        · exact .inl h
        · exact .inr (List.mem_cons_of_mem _ h)
      · rcases List.mem_cons.1 h with h | h
        · exact .inr (h ▸ List.mem_cons_self)
        · exact (ih h).imp_right (List.mem_cons_of_mem _)

/-- An insertion keeps the list sorted. -/
theorem sorted_insertEntry (k : String) (v : α) {es : List (String × α)}
    (h : es.Pairwise (fun a b => a.1 < b.1)) :
    (insertEntry k v es).Pairwise (fun a b => a.1 < b.1) := by
  induction es with
  | nil => simp [insertEntry]
  | cons e es ih =>
    obtain ⟨head, tail⟩ := List.pairwise_cons.1 h
    unfold insertEntry
    split
    · rename_i lt
      refine List.pairwise_cons.2 ⟨fun d hd => ?_, h⟩
      rcases List.mem_cons.1 hd with rfl | hd
      · exact lt
      · exact String.lt_trans lt (head d hd)
    · rename_i notLt
      split
      · rename_i eq
        subst eq
        exact List.pairwise_cons.2 ⟨head, tail⟩
      · rename_i ne
        refine List.pairwise_cons.2 ⟨fun d hd => ?_, ih tail⟩
        rcases mem_insertEntry hd with rfl | hd
        · exact Std.lt_of_le_of_ne (String.not_lt.1 notLt) (Ne.symm ne)
        · exact head d hd

/-- `d` with `v` at `k`, in place of what was there. -/
def insert (d : Dict α) (k : String) (v : α) : Dict α :=
  ⟨insertEntry k v d.entries, sorted_insertEntry k v d.sorted⟩

/-- The value at `k`. -/
def find? (d : Dict α) (k : String) : Option α :=
  (d.entries.find? (·.1 == k)).map (·.2)

/-- Whether there is a value at `k`. -/
def contains (d : Dict α) (k : String) : Bool :=
  (d.find? k).isSome

/-- `d` without the key `k`. -/
def erase (d : Dict α) (k : String) : Dict α :=
  ⟨d.entries.filter (·.1 != k), d.sorted.filter _⟩

/-- `d` with every entry of `e`, which wins where both have a key. -/
def overlay (d e : Dict α) : Dict α :=
  e.entries.foldl (fun acc (k, v) => acc.insert k v) d

/-- The entries of a list, a later one in place of an earlier one. -/
def ofList (es : List (String × α)) : Dict α :=
  es.foldl (fun acc (k, v) => acc.insert k v) empty

end Dict

end TableMapper
