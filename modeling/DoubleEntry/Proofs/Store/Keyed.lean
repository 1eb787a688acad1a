import DoubleEntry.Store.Basic

/-!
# Stores keyed by group id

A store does not look at the entries that it keeps, so it could hold one under
another's id. No write does that: each puts an entry under its own id or leaves
the ids alone.
-/

namespace DoubleEntry

namespace Store

/-- Every entry is stored under its own group id. -/
def Keyed (s : Store) : Prop :=
  ∀ groupId e, s.find? groupId = some e → e.groupId = groupId

theorem keyed_empty : empty.Keyed := by
  intro groupId e h
  cases h

theorem Keyed.insert? {s t : Store} {e : Entry} (hs : s.Keyed) (h : s.insert? e = some t) :
    t.Keyed := by
  intro groupId held hheld
  rw [find?_insert? h] at hheld
  split at hheld
  · rename_i hid
    cases hheld
    exact hid.symm
  · exact hs groupId held hheld

theorem Keyed.put {s : Store} (hs : s.Keyed) (e : Entry) : (s.put e).Keyed := by
  intro groupId held hheld
  rw [find?_put] at hheld
  split at hheld
  · rename_i hid
    cases hheld
    exact hid.symm
  · exact hs groupId held hheld

theorem Keyed.markReversed? {s t : Store} {groupId : String} {moment : Instant} (hs : s.Keyed)
    (h : s.markReversed? groupId moment = some t) : t.Keyed := by
  intro other held hheld
  rw [find?_markReversed? h] at hheld
  split at hheld
  · obtain ⟨old, hold, rfl⟩ := Option.map_eq_some_iff.1 hheld
    exact hs other old hold
  · exact hs other held hheld

theorem Keyed.nodup_ids {s : Store} (hs : s.Keyed) : (s.entries.map Entry.groupId).Nodup := by
  have hids : s.entries.map Entry.groupId = s.documents.map Prod.fst := by
    rw [entries, List.map_map]
    apply List.map_congr_left
    rintro ⟨groupId, e⟩ hmem
    exact hs groupId e ((mem_documents_iff s groupId e).1 hmem)
  rw [hids]
  exact s.ids_nodup

end Store

end DoubleEntry
