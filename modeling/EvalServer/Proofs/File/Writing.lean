import EvalServer.Proofs.File.Paths
import EvalServer.Proofs.Frame.Coding

/-!
# Texts survive writing

A text that has been written to a path is read from it. To write takes the place of what stood
there, which is no directory, so every way that has led through directories still does.
-/

namespace EvalServer.File.Store

variable {s s' : Store} {place : Place} {path text : String}

lemma writeText_eq_ok : s.writeText path text = .ok s' ↔ ∃ place, s.locate path = .ok place ∧
    path.endsWith "/" = false ∧ s.node? place ≠ some .directory ∧
      s.put place (.file (Text.Utf8.encode text.toList)) = s' := by
  unfold writeText
  cases s.locate path with
  | error e => simp
  | ok place =>
    by_cases hends : path.endsWith "/" = true
    · simp [hends]
    · by_cases hnode : s.node? place = some .directory <;> simp [hends, hnode]

lemma node?_put_self (hplace : place ≠ []) (node : Node) :
    (s.put place node).node? place = some node := by
  simp [node?, put, hplace]

lemma lookup_filter_ne {other : Place} (hother : other ≠ place) (nodes : List (Place × Node)) :
    (nodes.filter fun entry => entry.1 ≠ place).lookup other = nodes.lookup other := by
  induction nodes with
  | nil => rfl
  | cons entry nodes ih =>
    obtain ⟨key, value⟩ := entry
    by_cases hkey : key = place
    · rw [List.filter_cons_of_neg (by simpa using hkey), List.lookup_cons, hkey,
        beq_false_of_ne hother, ih]
    · rw [List.filter_cons_of_pos (by simpa using hkey), List.lookup_cons, List.lookup_cons, ih]

lemma node?_put_of_ne {other : Place} (hother : other ≠ place) (node : Node) :
    (s.put place node).node? other = s.node? other := by
  simp only [node?, put, List.lookup_cons, beq_false_of_ne hother, lookup_filter_ne hother]

/-- A way through directories leads to the same place after something else is put elsewhere. -/
lemma walk_put (hplace : s.node? place ≠ some .directory) (node : Node) {start target : Place}
    {rest : List String} (hwalk : s.walk start rest = .ok target) :
    (s.put place node).walk start rest = .ok target := by
  fun_induction walk s start rest with
  | case1 start => exact hwalk
  | case3 start component hfits => rwa [walk, if_neg hfits]
  | case5 start component rest hne hfits next hnext ih =>
    obtain ⟨other, more, rfl⟩ := List.exists_cons_of_ne_nil hne
    have hother : next ≠ place := fun heq => hplace (heq ▸ hnext)
    simp only [walk, if_neg hfits]
    rw [node?_put_of_ne hother, hnext]
    exact ih hwalk
  | case2 | case4 | case6 | case7 => cases hwalk

lemma locate_put (hplace : s.node? place ≠ some .directory) (node : Node) {target : Place}
    (hlocate : s.locate path = .ok target) : (s.put place node).locate path = .ok target := by
  obtain ⟨hnul, hne, hlength, hwalk⟩ := locate_eq_ok.1 hlocate
  exact locate_eq_ok.2 ⟨hnul, hne, hlength, walk_put hplace node hwalk⟩

lemma find_writeText (h : s.writeText path text = .ok s') :
    s'.find path = .ok (.file (Text.Utf8.encode text.toList)) := by
  obtain ⟨place, hlocate, hends, hplace, rfl⟩ := writeText_eq_ok.1 h
  have hne : place ≠ [] := by
    rintro rfl
    exact hplace rfl
  simp [find, locate_put hplace _ hlocate, node?_put_self hne, hends]

lemma pathExists_writeText (h : s.writeText path text = .ok s') : s'.pathExists path = true := by
  rw [pathExists, find_writeText h]

/-- What is read from a path is what has been written to it last. -/
theorem readText_writeText (h : s.writeText path text = .ok s') :
    s'.readText path = .ok text := by
  rw [readText, find_writeText h]
  simp only [Text.Utf8.decode?_encode, String.ofList_toList]

end EvalServer.File.Store
