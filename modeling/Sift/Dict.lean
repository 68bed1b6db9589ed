/-!
# Maps with text keys

Finite maps from texts to anything, kept in ascending order of their keys. `Entries` holds the
operations on plain lists of entries, `Dict` pairs such a list with the proof that its keys ascend,
so that two maps with the same bindings are equal (`Dict.ext_get?`).
-/

namespace Sift

variable {α β : Type _}

abbrev Entries (α : Type _) := List (String × α)

namespace Entries

def Sorted (es : Entries α) : Prop := es.Pairwise fun a b => a.1 < b.1

/-- The binding of a key. -/
def get? : Entries α → String → Option α
  | [], _ => none
  | (k, v) :: rest, key => if k = key then some v else get? rest key

/-- Bind a key, in place of what it stood for. -/
def insert (key : String) (value : α) : Entries α → Entries α
  | [] => [(key, value)]
  | (k, v) :: rest =>
    if key < k then (key, value) :: (k, v) :: rest
    else if key = k then (key, value) :: rest
    else (k, v) :: insert key value rest

def erase (key : String) (es : Entries α) : Entries α := es.filter fun e => e.1 ≠ key

/-- Bind one key after the other, so that the last binding of a key counts. -/
def insertAll (es : Entries α) (new : Entries α) : Entries α :=
  new.foldl (fun acc e => acc.insert e.1 e.2) es

/-- The map of a list of bindings in any order, of which the last one of a key counts. -/
def ofList (es : Entries α) : Entries α := insertAll [] es

def keys (es : Entries α) : List String := es.map Prod.fst

@[simp] theorem get?_nil (key : String) : get? ([] : Entries α) key = none := rfl

@[simp] theorem get?_cons (k : String) (v : α) (rest : Entries α) (key : String) :
    get? ((k, v) :: rest) key = if k = key then some v else get? rest key := rfl

@[simp] theorem sorted_nil : Sorted ([] : Entries α) := List.Pairwise.nil

@[simp] theorem sorted_cons (e : String × α) (rest : Entries α) :
    Sorted (e :: rest) ↔ (∀ x ∈ rest, e.1 < x.1) ∧ Sorted rest := List.pairwise_cons

/-- Binding a key adds at most that binding. -/
theorem mem_insert {key : String} {value : α} {es : Entries α} {e : String × α}
    (h : e ∈ es.insert key value) : e = (key, value) ∨ e ∈ es := by
  induction es with
  | nil => simpa [insert] using h
  | cons x rest ih =>
    simp only [insert] at h
    split at h
    · simpa using h
    · split at h
      · obtain h | h := List.mem_cons.1 h
        · exact .inl h
        · exact .inr (List.mem_cons_of_mem _ h)
      · obtain h | h := List.mem_cons.1 h
        · exact .inr (h ▸ List.mem_cons_self)
        · exact (ih h).imp_right (List.mem_cons_of_mem _)

/-- The place of a new binding keeps the keys in order. -/
theorem Sorted.insert {es : Entries α} (h : es.Sorted) (key : String) (value : α) :
    (es.insert key value).Sorted := by
  induction es with
  | nil => simp [Entries.insert, sorted_cons]
  | cons x rest ih =>
    rw [sorted_cons] at h
    simp only [Entries.insert]
    split
    · rename_i lt
      refine (sorted_cons _ _).2 ⟨fun y hy => ?_, (sorted_cons _ _).2 h⟩
      obtain rfl | hy := List.mem_cons.1 hy
      · exact lt
      · exact String.lt_trans lt (h.1 y hy)
    · split
      · rename_i eq
        exact (sorted_cons _ _).2 ⟨fun y hy => eq ▸ h.1 y hy, h.2⟩
      · rename_i nlt neq
        refine (sorted_cons _ _).2 ⟨fun y hy => ?_, ih h.2⟩
        obtain rfl | hy := mem_insert hy
        · obtain lt | eq | gt := Std.lt_trichotomy key x.1
          · exact absurd lt nlt
          · exact absurd eq neq
          · exact gt
        · exact h.1 y hy

theorem Sorted.erase {es : Entries α} (h : es.Sorted) (key : String) : (es.erase key).Sorted :=
  List.Pairwise.filter _ h

theorem Sorted.insertAll {es : Entries α} (h : es.Sorted) (new : Entries α) :
    (es.insertAll new).Sorted := by
  induction new generalizing es with
  | nil => exact h
  | cons e new ih => exact ih (h.insert e.1 e.2)

theorem sorted_ofList (es : Entries α) : (ofList es).Sorted := sorted_nil.insertAll es

/-- Only the look-up of the key that is bound changes. -/
theorem get?_insert (es : Entries α) (key : String) (value : α) (k : String) :
    (es.insert key value).get? k = if key = k then some value else es.get? k := by
  induction es with
  | nil => simp [insert]
  | cons x rest ih =>
    obtain ⟨x, v⟩ := x
    simp only [insert]
    split
    · simp
    · split
      · rename_i eq
        subst eq
        by_cases h : key = k <;> simp [h]
      · rename_i neq
        simp only [get?_cons, ih]
        by_cases h : x = k
        · subst h
          simp [neq]
        · simp [h]

/-- Only the look-up of the key that is forgotten changes. -/
theorem get?_erase (es : Entries α) (key k : String) :
    (es.erase key).get? k = if key = k then none else es.get? k := by
  induction es with
  | nil => simp [erase]
  | cons x rest ih =>
    obtain ⟨x, v⟩ := x
    have step : erase key ((x, v) :: rest)
        = if x = key then erase key rest else (x, v) :: erase key rest := by
      by_cases h : x = key <;> simp [erase, h]
    rw [step]
    by_cases h : x = key
    · subst h
      rw [if_pos rfl, ih]
      by_cases hk : x = k <;> simp [hk]
    · rw [if_neg h, get?_cons, get?_cons, ih]
      by_cases hk : x = k
      · subst hk
        simp [Ne.symm h]
      · simp [hk]

theorem get?_eq_none_of_lt {es : Entries α} {key : String} (h : ∀ e ∈ es, key < e.1) :
    es.get? key = none := by
  induction es with
  | nil => rfl
  | cons x rest ih =>
    obtain ⟨x, v⟩ := x
    have hx : key < x := h (x, v) List.mem_cons_self
    have neq : x ≠ key := fun eq => String.lt_irrefl key (eq ▸ hx)
    rw [get?_cons, if_neg neq]
    exact ih fun e he => h e (List.mem_cons_of_mem _ he)

/-- The keys are those that stand for something. -/
theorem isSome_get?_iff {es : Entries α} {key : String} :
    (es.get? key).isSome = true ↔ key ∈ es.keys := by
  rw [keys]
  induction es with
  | nil => simp
  | cons entry es ih =>
    obtain ⟨k, v⟩ := entry
    rw [get?_cons, List.map_cons, List.mem_cons, ← ih]
    by_cases h : k = key
    · simp [h]
    · simp [h, Ne.symm h]

/-- A map is determined by its bindings. -/
theorem Sorted.ext {es fs : Entries α} (he : es.Sorted) (hf : fs.Sorted)
    (h : ∀ k, es.get? k = fs.get? k) : es = fs := by
  induction es generalizing fs with
  | nil =>
    cases fs with
    | nil => rfl
    | cons y fs => simpa [get?] using h y.1
  | cons x es ih =>
    cases fs with
    | nil => simpa [get?] using h x.1
    | cons y fs =>
      obtain ⟨x, v⟩ := x
      obtain ⟨y, w⟩ := y
      rw [sorted_cons] at he hf
      have xy : x = y := by
        obtain lt | eq | gt := Std.lt_trichotomy x y
        · have := h x
          rw [get?_cons, if_pos rfl, get?_eq_none_of_lt] at this
          · simp at this
          · intro e he'
            obtain rfl | he' := List.mem_cons.1 he'
            · exact lt
            · exact String.lt_trans lt (hf.1 e he')
        · exact eq
        · have := h y
          rw [eq_comm, get?_cons, if_pos rfl, get?_eq_none_of_lt] at this
          · simp at this
          · intro e he'
            obtain rfl | he' := List.mem_cons.1 he'
            · exact gt
            · exact String.lt_trans gt (he.1 e he')
      subst xy
      have vw : v = w := by simpa using h x
      subst vw
      rw [ih he.2 hf.2 fun k => ?_]
      by_cases hk : x = k
      · subst hk
        rw [get?_eq_none_of_lt he.1, get?_eq_none_of_lt hf.1]
      · simpa [hk] using h k

/-- The first of two lists is looked at first. -/
theorem get?_append (es fs : Entries α) (key : String) :
    get? (es ++ fs) key = (es.get? key).or (fs.get? key) := by
  induction es with
  | nil => rfl
  | cons e rest ih =>
    rw [List.cons_append, get?_cons, get?_cons, ih]
    split <;> rfl

/-- The last binding of a key counts. -/
theorem get?_insertAll (es new : Entries α) (key : String) :
    (es.insertAll new).get? key = (get? new.reverse key).or (es.get? key) := by
  induction new generalizing es with
  | nil => rfl
  | cons e new ih =>
    have step : es.insertAll (e :: new) = (es.insert e.1 e.2).insertAll new := rfl
    rw [step, ih, get?_insert, List.reverse_cons, get?_append, Option.or_assoc, get?_cons]
    split <;> simp

/-- Where no key comes twice, looking up is membership. -/
theorem get?_eq_some_iff {es : Entries α} (distinct : es.keys.Nodup) {key : String} {v : α} :
    es.get? key = some v ↔ (key, v) ∈ es := by
  induction es with
  | nil => simp
  | cons e rest ih =>
    obtain ⟨k, w⟩ := e
    rw [keys, List.map_cons, List.nodup_cons] at distinct
    rw [get?_cons, List.mem_cons, Prod.mk.injEq]
    split
    · rename_i same
      subst same
      have later : (k, v) ∉ rest := fun mem => distinct.1 (List.mem_map.2 ⟨(k, v), mem, rfl⟩)
      simp [later, eq_comm]
    · rename_i other
      rw [ih distinct.2, eq_comm (a := key)]
      simp [other]

theorem Sorted.keys_ascend {es : Entries α} (h : es.Sorted) : es.keys.Pairwise (· < ·) :=
  List.pairwise_map.2 h

theorem Sorted.keys_nodup {es : Entries α} (h : es.Sorted) : es.keys.Nodup :=
  h.keys_ascend.imp String.ne_of_lt

/-- Bindings of different keys may be listed in any order. -/
theorem ofList_eq_of_perm {es fs : Entries α} (h : fs.Sorted) (perm : es.Perm fs) :
    ofList es = fs := by
  refine (sorted_ofList es).ext h fun key => Option.ext fun v => ?_
  have distinct : (keys es.reverse).Nodup :=
    ((es.reverse_perm.trans perm).map Prod.fst).nodup_iff.2 h.keys_nodup
  rw [ofList, get?_insertAll, get?_nil, Option.or_none, get?_eq_some_iff distinct,
    get?_eq_some_iff h.keys_nodup, List.mem_reverse, perm.mem_iff]

end Entries

/-! ### Maps in canonical form -/

/-- A finite map with text keys. -/
structure Dict (α : Type _) where
  entries : Entries α
  sorted : entries.Sorted

namespace Dict

def empty : Dict α := ⟨[], Entries.sorted_nil⟩

instance : Inhabited (Dict α) := ⟨empty⟩

def get? (d : Dict α) (key : String) : Option α := d.entries.get? key

def contains (d : Dict α) (key : String) : Bool := (d.get? key).isSome

def insert (d : Dict α) (key : String) (value : α) : Dict α :=
  ⟨d.entries.insert key value, d.sorted.insert key value⟩

def erase (d : Dict α) (key : String) : Dict α := ⟨d.entries.erase key, d.sorted.erase key⟩

def insertAll (d : Dict α) (new : Entries α) : Dict α :=
  ⟨d.entries.insertAll new, d.sorted.insertAll new⟩

def keys (d : Dict α) : List String := d.entries.keys

@[simp] theorem get?_insert (d : Dict α) (key : String) (value : α) (k : String) :
    (d.insert key value).get? k = if key = k then some value else d.get? k :=
  Entries.get?_insert ..

@[simp] theorem get?_erase (d : Dict α) (key k : String) :
    (d.erase key).get? k = if key = k then none else d.get? k :=
  Entries.get?_erase ..

/-- The keys of a map are those that are bound. -/
theorem contains_iff {d : Dict α} {key : String} : d.contains key = true ↔ key ∈ d.keys :=
  Entries.isSome_get?_iff

/-- Maps with the same bindings are equal. -/
theorem ext_get? {d e : Dict α} (h : ∀ k, d.get? k = e.get? k) : d = e := by
  obtain ⟨ds, hd⟩ := d
  obtain ⟨es, he⟩ := e
  simp only [mk.injEq]
  exact hd.ext he h

end Dict

end Sift
