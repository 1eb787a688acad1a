import DoubleEntry.Query

/-!
# The store

A store keeps one entry under each group id. It is observed through `find?` and
through scans in the order of time and group id, so the order of writes shows
nowhere. The lemmas at the end say what each write does to `find?`.
-/

namespace DoubleEntry

/-- Entries under their group ids, no id twice. -/
structure Store where
  documents : List (String × Entry)
  ids_nodup : (documents.map Prod.fst).Nodup

namespace Store

def empty : Store :=
  ⟨[], by simp⟩

instance : Inhabited Store := ⟨empty⟩

def size (s : Store) : Nat :=
  s.documents.length

def find? (s : Store) (groupId : String) : Option Entry :=
  s.documents.lookup groupId

def entries (s : Store) : List Entry :=
  s.documents.map Prod.snd

def holds (s : Store) (groupId : String) : Bool :=
  s.documents.any fun document => document.1 == groupId

theorem not_mem_ids_of_not_holds {s : Store} {groupId : String} (h : s.holds groupId = false) :
    groupId ∉ s.documents.map Prod.fst := by
  simp only [holds, List.any_eq_false, beq_iff_eq] at h
  simp only [List.mem_map, not_exists, not_and]
  exact fun document hmem heq => h document hmem heq

def update (s : Store) (groupId : String) (change : Entry → Entry) : Store :=
  { documents := s.documents.map fun document =>
      if document.1 = groupId then (document.1, change document.2) else document
    ids_nodup := by
      have hids : (s.documents.map fun document =>
          if document.1 = groupId then (document.1, change document.2) else document).map
          Prod.fst = s.documents.map Prod.fst := by
        rw [List.map_map]
        apply List.map_congr_left
        intro document _
        simp only [Function.comp_apply]
        split <;> rfl
      rw [hids]
      exact s.ids_nodup }

/-- Store a new entry under its group id; none when the id is taken. -/
def insert? (s : Store) (e : Entry) : Option Store :=
  if h : s.holds e.groupId = false then
    some
      { documents := (e.groupId, e) :: s.documents
        ids_nodup := by
          rw [List.map_cons, List.nodup_cons]
          exact ⟨not_mem_ids_of_not_holds h, s.ids_nodup⟩ }
  else
    none

def put (s : Store) (e : Entry) : Store :=
  match s.insert? e with
  | some added => added
  | none => s.update e.groupId fun _ => e

/-- Flag the entry under an id as reversed; none when there is no such entry. -/
def markReversed? (s : Store) (groupId : String) (moment : Instant) : Option Store :=
  if s.holds groupId then
    some (s.update groupId fun e => { e with reversed := some moment })
  else
    none

/-- Earlier entries first; entries of one time by group id. -/
def precedes (a b : Entry) : Bool :=
  a.timestamp < b.timestamp || (a.timestamp == b.timestamp && a.groupId ≤ b.groupId)

/-- The entries that a query selects, oldest first. -/
def fetch (s : Store) (q : EntryQuery) : List Entry :=
  (s.entries.filter q.accepts).mergeSort precedes

/-- Every account on either side of any entry, once, in order. -/
def accounts (s : Store) : List Account :=
  Account.sortDistinct <|
    s.entries.flatMap fun e => e.debit.account.toList ++ e.credit.account.toList

/-! ## What each write does to `find?` -/

@[simp] theorem find?_empty (groupId : String) : empty.find? groupId = none :=
  rfl

@[simp] theorem size_empty : empty.size = 0 :=
  rfl

theorem isSome_find? (s : Store) (groupId : String) :
    (s.find? groupId).isSome = s.holds groupId := by
  unfold find? holds
  induction s.documents with
  | nil => rfl
  | cons document rest ih =>
    obtain ⟨key, held⟩ := document
    by_cases h : groupId = key
    · subst h
      simp
    · have hkey : (groupId == key) = false := by simpa using h
      have hid : (key == groupId) = false := by simpa using fun h' => h h'.symm
      simp [List.lookup_cons, hkey, hid, ih]

theorem insert?_eq_none_iff (s : Store) (e : Entry) :
    s.insert? e = none ↔ s.holds e.groupId = true := by
  unfold insert?
  split <;> simp_all

theorem find?_insert? {s t : Store} {e : Entry} (h : s.insert? e = some t) (groupId : String) :
    t.find? groupId = if groupId = e.groupId then some e else s.find? groupId := by
  unfold insert? at h
  split at h
  · obtain rfl := Option.some.inj h
    by_cases hid : groupId = e.groupId
    · subst hid
      simp [find?]
    · have hkey : (groupId == e.groupId) = false := by simpa using hid
      simp [find?, List.lookup_cons, hkey, hid]
  · simp at h

theorem find?_of_insert? {s t : Store} {e : Entry} (h : s.insert? e = some t) :
    s.find? e.groupId = none := by
  rw [← Option.not_isSome_iff_eq_none, isSome_find?]
  intro hholds
  rw [(insert?_eq_none_iff s e).2 hholds] at h
  cases h

theorem find?_insert?_of_some {s t : Store} {e held : Entry} {groupId : String}
    (h : s.insert? e = some t) (hheld : s.find? groupId = some held) :
    t.find? groupId = some held := by
  rw [find?_insert? h, if_neg]
  · exact hheld
  · rintro rfl
    rw [find?_of_insert? h] at hheld
    cases hheld

theorem size_insert? {s t : Store} {e : Entry} (h : s.insert? e = some t) :
    t.size = s.size + 1 := by
  unfold insert? at h
  split at h
  · obtain rfl := Option.some.inj h
    simp [size]
  · simp at h

theorem find?_update (s : Store) (groupId : String) (change : Entry → Entry) (other : String) :
    (s.update groupId change).find? other =
      if other = groupId then (s.find? other).map change else s.find? other := by
  unfold find? update
  simp only
  induction s.documents with
  | nil => simp
  | cons document rest ih =>
    obtain ⟨key, held⟩ := document
    by_cases hother : other = key
    · subst hother
      by_cases hid : other = groupId <;> simp [hid]
    · have hkey : (other == key) = false := by simpa using hother
      by_cases hid : key = groupId
      · subst hid
        simp [List.lookup_cons, hkey, ih]
      · simp [List.lookup_cons, hkey, hid, ih]

@[simp] theorem size_update (s : Store) (groupId : String) (change : Entry → Entry) :
    (s.update groupId change).size = s.size := by
  simp [size, update]

theorem find?_put (s : Store) (e : Entry) (groupId : String) :
    (s.put e).find? groupId = if groupId = e.groupId then some e else s.find? groupId := by
  unfold put
  split
  · rename_i h
    exact find?_insert? h groupId
  · rename_i h
    rw [find?_update]
    by_cases hid : groupId = e.groupId
    · subst hid
      have hheld := (insert?_eq_none_iff s e).1 h
      rw [← isSome_find?] at hheld
      obtain ⟨old, hold⟩ := Option.isSome_iff_exists.1 hheld
      simp [hold]
    · simp [hid]

theorem markReversed?_eq_none_iff (s : Store) (groupId : String) (moment : Instant) :
    s.markReversed? groupId moment = none ↔ s.holds groupId = false := by
  unfold markReversed?
  split <;> simp_all

theorem find?_markReversed? {s t : Store} {groupId : String} {moment : Instant}
    (h : s.markReversed? groupId moment = some t) (other : String) :
    t.find? other =
      if other = groupId then (s.find? other).map fun e => { e with reversed := some moment }
      else s.find? other := by
  unfold markReversed? at h
  split at h
  · obtain rfl := Option.some.inj h
    exact find?_update s groupId _ other
  · simp at h

theorem size_markReversed? {s t : Store} {groupId : String} {moment : Instant}
    (h : s.markReversed? groupId moment = some t) : t.size = s.size := by
  unfold markReversed? at h
  split at h
  · obtain rfl := Option.some.inj h
    exact size_update s groupId _
  · cases h

theorem mem_documents_iff (s : Store) (groupId : String) (e : Entry) :
    (groupId, e) ∈ s.documents ↔ s.find? groupId = some e := by
  unfold find?
  have hids := s.ids_nodup
  revert hids
  induction s.documents with
  | nil => simp
  | cons document rest ih =>
    obtain ⟨key, held⟩ := document
    intro hids
    rw [List.map_cons, List.nodup_cons] at hids
    by_cases hid : groupId = key
    · subst hid
      have hnone : (groupId, e) ∉ rest := fun h => hids.1 (List.mem_map.2 ⟨_, h, rfl⟩)
      simp [hnone, eq_comm]
    · have hkey : (groupId == key) = false := by simpa using hid
      simp [List.lookup_cons, hkey, ih hids.2, hid]

theorem mem_entries_iff (s : Store) (e : Entry) :
    e ∈ s.entries ↔ ∃ groupId, s.find? groupId = some e := by
  simp [entries, ← mem_documents_iff]

end Store

end DoubleEntry
