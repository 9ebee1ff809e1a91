import EvalServer.File.Source
import Mathlib.Tactic.Lemma

/-!
# Where paths lead

A path that puts a name after a directory leads where the name leads from that directory. So a file
with a relative name is found again from the working directory, unless another directory that is
searched before has a file of that name.
-/

namespace EvalServer.File

variable {directory name path : String}

lemma startsWith_slash : path.startsWith "/" = true ↔ path.toList.head? = some '/' := by
  rw [String.startsWith_string_iff]
  cases path.toList <;> simp [eq_comm]

lemma endsWith_slash : path.endsWith "/" = true ↔ path.toList.getLast? = some '/' := by
  rw [String.endsWith_eq_endsWith_toSlice, String.Slice.endsWith_string_iff, String.copy_toSlice,
    List.getLast?_eq_some_iff]
  exact exists_congr fun _ => eq_comm

/-! ## A name after a directory -/

section join

lemma toList_join (directory name : String) : (join directory name).toList = directory.toList ++
    (if directory = "" || directory.endsWith "/" then [] else ['/']) ++ name.toList := by
  unfold join
  split <;> simp

lemma startsWith_join (hdirectory : directory ≠ "") (name : String) :
    (join directory name).startsWith "/" = directory.startsWith "/" := by
  obtain ⟨c, cs, hcs⟩ := List.exists_cons_of_ne_nil (mt String.toList_eq_nil_iff.1 hdirectory)
  rw [Bool.eq_iff_iff, startsWith_slash, startsWith_slash, toList_join, hcs]
  simp

lemma endsWith_join (directory : String) (hname : name ≠ "") :
    (join directory name).endsWith "/" = name.endsWith "/" := by
  obtain ⟨last, hlast⟩ : ∃ last, name.toList.getLast? = some last :=
    Option.isSome_iff_exists.1 (by simpa using hname)
  rw [Bool.eq_iff_iff, endsWith_slash, endsWith_slash, toList_join, List.getLast?_append, hlast,
    Option.some_or]

lemma filter_splitOn (front rest : List Char) :
    ((front ++ '/' :: rest).splitOn '/').filter (· ≠ []) =
      (front.splitOn '/').filter (· ≠ []) ++ (rest.splitOn '/').filter (· ≠ []) := by
  rw [List.splitOn_append_cons_self, List.filter_append]

lemma components_join (hdirectory : directory ≠ "") (name : String) :
    Store.components (join directory name) =
      Store.components directory ++ Store.components name := by
  unfold Store.components
  rw [← List.map_append]
  congr 1
  by_cases hends : directory.endsWith "/" = true
  · obtain ⟨cs, hcs⟩ := List.getLast?_eq_some_iff.1 (endsWith_slash.1 hends)
    have hjoin : (join directory name).toList = cs ++ '/' :: name.toList := by
      simp [toList_join, hends, hcs]
    rw [hjoin, hcs, filter_splitOn, filter_splitOn]
    simp
  · have hjoin : (join directory name).toList = directory.toList ++ '/' :: name.toList := by
      simp [toList_join, hends, hdirectory]
    rw [hjoin, filter_splitOn]

end join

namespace Store

variable {s : Store} {place : Place}

/-- To walk on from a directory. -/
lemma walk_append {start : Place} {front : List String} (rest : List String)
    (hfront : s.walk start front = .ok place) (hplace : s.node? place = some .directory) :
    s.walk start (front ++ rest) = s.walk place rest := by
  fun_induction walk s start front with
  | case1 start =>
    cases hfront
    rfl
  | case3 start component hfits =>
    cases hfront
    cases rest with
    | nil => simp only [List.append_nil, walk, if_neg hfits]
    | cons next rest => simp only [List.singleton_append, walk, if_neg hfits, hplace]
  | case5 start component front hne hfits next hnext ih =>
    obtain ⟨other, more, rfl⟩ := List.exists_cons_of_ne_nil hne
    rw [← ih hfront]
    simp only [List.cons_append, walk, if_neg hfits]
    rw [hnext]
  | case2 | case4 | case6 | case7 => cases hfront

lemma locate_eq_ok : s.locate path = .ok place ↔
    Char.ofNat 0 ∉ path.toList ∧ path ≠ "" ∧ path.utf8ByteSize ≤ maxPath ∧
      s.walk (if path.startsWith "/" then [] else s.workingDirectory) (components path) =
        .ok place := by
  rw [← List.contains_iff_mem, ← Nat.not_lt, locate]
  split
  · next h => exact iff_of_false (by simp) fun hall => hall.1 h
  · next hnul =>
    split
    · next h => exact iff_of_false (by simp) fun hall => hall.2.1 h
    · next hne =>
      split
      · next h => exact iff_of_false (by simp) fun hall => hall.2.2.1 h
      · next hlength => exact ⟨fun hwalk => ⟨hnul, hne, hlength, hwalk⟩, fun hall => hall.2.2.2⟩

/-- A relative name that leads somewhere leads there from the working directory, however this
directory is called. -/
lemma locate_join (hdirectory : s.locate directory = .ok s.workingDirectory)
    (hplace : s.node? s.workingDirectory = some .directory) (hname : s.locate name = .ok place)
    (hrelative : name.startsWith "/" = false)
    (hlength : (join directory name).utf8ByteSize ≤ maxPath) :
    s.locate (join directory name) = .ok place := by
  obtain ⟨hnul, hne, -, hwalk⟩ := locate_eq_ok.1 hdirectory
  obtain ⟨hnul', hne', -, hwalk'⟩ := locate_eq_ok.1 hname
  rw [hrelative, if_neg (by simp)] at hwalk'
  refine locate_eq_ok.2 ⟨?_, ?_, hlength, ?_⟩
  · rw [toList_join]
    split <;> simp [hnul, hnul']
  · intro hempty
    have hlist := congrArg String.toList hempty
    rw [toList_join] at hlist
    simp [hne'] at hlist
  · rw [startsWith_join hne, components_join hne, walk_append _ hwalk hplace, hwalk']

lemma isFile_iff : s.isFile path = true ↔ ∃ place bytes, s.locate path = .ok place ∧
    s.node? place = some (.file bytes) ∧ path.endsWith "/" = false := by
  unfold isFile find
  cases hlocate : s.locate path with
  | error e => simp
  | ok place =>
    cases hnode : s.node? place with
    | none => simp [hnode]
    | some node =>
      cases node with
      | directory => simp [hnode]
      | file bytes =>
        cases hends : path.endsWith "/" <;> simp [hnode]

lemma isFile_of_readText {text : String} (h : s.readText path = .ok text) :
    s.isFile path = true := by
  unfold readText at h
  unfold isFile
  split at h
  · cases h
  · cases h
  · next hfind => rw [hfind]

end Store

/-! ## The search for a file -/

/-- A file is found again by its name: the name is absolute, or it is short enough to be put after
the name of the working directory, and no directory that is searched before has another file of the
name. -/
def Found (s : Store) (directories : List String) (current name : String) : Prop :=
  name.startsWith "/" = true ∨
    s.locate current = .ok s.workingDirectory ∧
    s.node? s.workingDirectory = some .directory ∧
    (join current name).utf8ByteSize ≤ Store.maxPath ∧
    ∀ directory ∈ directories, s.isFile (join directory name) = true →
      s.locate (join directory name) = s.locate name

lemma findSource_of_found {s : Store} {directories : List String} {current : String}
    (hfile : s.isFile name = true) (hfound : Found s directories current name) :
    ∃ path, findSource s name (directories ++ [current]) = some path ∧
      s.locate path = s.locate name := by
  unfold findSource candidates
  rcases hfound with habsolute | ⟨hcurrent, hplace, hlength, hothers⟩
  · exact ⟨name, by simp [habsolute, hfile], rfl⟩
  · cases hrelative : name.startsWith "/" with
    | true => exact ⟨name, by simp [hfile], rfl⟩
    | false =>
      obtain ⟨place, bytes, hname, hnode, hends⟩ := Store.isFile_iff.1 hfile
      have hhere := Store.locate_join hcurrent hplace hname hrelative hlength
      have hne : name ≠ "" := (Store.locate_eq_ok.1 hname).2.1
      have hfile' : s.isFile (join current name) = true :=
        Store.isFile_iff.2 ⟨place, bytes, hhere, hnode, by rw [endsWith_join _ hne, hends]⟩
      rw [if_neg (by simp), List.map_append, List.map_singleton, List.find?_append]
      cases hfind : (directories.map fun directory => join directory name).find? s.isFile with
      | none => exact ⟨_, by simp [hfile'], hhere.trans hname.symm⟩
      | some path =>
        obtain ⟨directory, hmem, rfl⟩ := List.mem_map.1 (List.mem_of_find?_eq_some hfind)
        exact ⟨_, rfl, hothers directory hmem (List.find?_some hfind)⟩

end EvalServer.File
