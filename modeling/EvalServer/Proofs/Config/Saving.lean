import EvalServer.Config.File
import EvalServer.Proofs.File.Writing
import EvalServer.Proofs.Toml.Documents

/-!
# Configurations after saving

A configuration that has been saved is loaded as it was, but for a secret file that is not set:
nothing is written for it, and what is not written has its default.
-/

namespace EvalServer

lemma Style.ofWord?_word (style : Style) : ofWord? style.word = some style := by
  cases style <;> decide

lemma Coding.ofName?_name (coding : Coding) : ofName? coding.name = some coding := by
  cases coding <;> decide

namespace Config

variable {c : Config} {files files' : File.Store} {path : String}

/-! ## What is written -/

/-- The keys of all settings. -/
def keys : List String :=
  ["host", "port", "port_file", "style", "keep_listening", "coding_system", "secret_file",
    "dedicated_output", "source_paths", "log_filter"]

lemma keys_entries (c : Config) : (c.entries.map Prod.fst).Sublist keys := by
  unfold entries optional keys
  cases c.portFile <;> cases c.secretFile <;> simp

lemma plainKey_of_mem {key : String} (h : key ∈ keys) : Toml.PlainKey key := by
  revert key
  simp [keys, Toml.PlainKey, Toml.isKeyCharacter]

lemma writable_entries (c : Config) : ∀ entry ∈ c.entries, Toml.Writable entry := by
  intro entry hentry
  refine ⟨plainKey_of_mem ((keys_entries c).subset (List.mem_map_of_mem hentry)), fun n hn => ?_⟩
  have hport : c.port.toNat < 65536 := c.port.toNat_lt
  have hall : ∀ entry ∈ c.entries, ∀ n, entry.2 = .integer n → n = c.port.toNat := by
    unfold entries optional
    cases c.portFile <;> cases c.secretFile <;> simp
  rw [hall entry hentry n hn]
  omega

lemma nodup_keys (c : Config) : (c.entries.map Prod.fst).Nodup :=
  (keys_entries c).nodup (by decide)

/-! ## What is read -/

lemma port?_integer (port : UInt16) : port? (.integer port.toNat) = some port := by
  have hport : port.toNat < 65536 := port.toNat_lt
  simp [port?]
  omega

lemma strings?_array (texts : List String) :
    strings? (.array (texts.map .string)) = some texts := by
  induction texts with
  | nil => rfl
  | cons text texts ih =>
    rw [strings?] at ih
    rw [strings?, List.map_cons, List.mapM_cons, ih]
    rfl

/-- A configuration in which a secret file that is not set has its default. -/
def completed (c : Config) (home : Option String) : Config :=
  { c with secretFile := c.secretFile.or (default home).secretFile }

lemma ofTable?_entries (c : Config) (home : Option String) :
    ofTable? (default home) (c.entries.map fun entry => (entry.1, entry.2.value)) =
      some (c.completed home) := by
  obtain ⟨host, port, portFile, style, keepListening, coding, secretFile, dedicatedOutput,
    sourcePaths, logFilter⟩ := c
  cases portFile <;> cases secretFile <;>
    simp [ofTable?, entries, optional, setting, List.lookup_cons, Toml.Entry.value, string?,
      boolean?, choice?, port?_integer, strings?_array, Style.ofWord?_word, Coding.ofName?_name,
      completed, default]

lemma parse?_toToml (c : Config) : Toml.parse? c.toToml =
    some (c.entries.map fun entry => (entry.1, entry.2.value)) :=
  Toml.parse?_print (writable_entries c) (nodup_keys c)

lemma read_of_parse {home : Option String} {text : String} {t : Toml.Table}
    (htext : files.readText path = .ok text) (hparse : Toml.parse? text = some t)
    (htable : ofTable? (default home) t = some c) : read files home path = .ok c := by
  simp only [read, htext, hparse, Option.bind_some, htable]

lemma load_eq_completed (h : c.save files path = .ok files') (home : Option String) :
    load files' home (some path) = .ok (c.completed home) := by
  have hwrite : files.writeText path c.toToml = .ok files' := h
  rw [load, if_pos (File.Store.pathExists_writeText hwrite)]
  exact read_of_parse (File.Store.readText_writeText hwrite) (parse?_toToml c)
    (ofTable?_entries c home)

lemma completed_eq_self_iff (c : Config) (home : Option String) :
    c.completed home = c ↔ c.secretFile.isSome ∨ home = none := by
  obtain ⟨host, port, portFile, style, keepListening, coding, secretFile, dedicatedOutput,
    sourcePaths, logFilter⟩ := c
  cases secretFile <;> cases home <;> simp [completed, default]

/-- A configuration that has been saved is loaded with every setting as it was, except that a secret
file that is not set becomes the one in the home directory; so it is itself if it has a secret
file, or if there is no home directory. -/
theorem load_save (h : c.save files path = .ok files') (home : Option String) :
    load files' home (some path) = .ok (c.completed home) ∧
      (load files' home (some path) = .ok c ↔ c.secretFile.isSome ∨ home = none) := by
  refine ⟨load_eq_completed h home, ?_⟩
  rw [load_eq_completed h, Except.ok.injEq, completed_eq_self_iff]

lemma exists_save (c : Config) : ∃ files', c.save {} "saved.toml" = .ok files' := by
  have hstart : "saved.toml".startsWith "/" = false := by decide +kernel
  have hcomponents : File.Store.components "saved.toml" = ["saved.toml"] := by decide +kernel
  have hlocate : File.Store.locate {} "saved.toml" = .ok ["saved.toml"] := by
    refine File.Store.locate_eq_ok.2 ⟨by decide +kernel, by decide, by decide, ?_⟩
    rw [hstart, hcomponents]
    rfl
  exact ⟨_, File.Store.writeText_eq_ok.2 ⟨_, hlocate, by decide +kernel, by decide, rfl⟩⟩

/-- Settings with texts that need every form of quotes. -/
def quotable : Config :=
  { default none with
    host := "a \"host\""
    portFile := some ""
    secretFile := some "it's \\ here"
    sourcePaths := ["", "one\ntwo", "''' \"\"\"\n"]
    logFilter := "\x07 \r\n" }

theorem load_save_quotable : ∃ files', quotable.save {} "saved.toml" = .ok files' ∧
    load files' (some "/root") (some "saved.toml") = .ok quotable := by
  obtain ⟨files', h⟩ := exists_save quotable
  exact ⟨files', h, (load_save h (some "/root")).2.2 (.inl rfl)⟩

/-- A configuration without a secret file is not loaded as it was: nothing is written for it, so
that the file in the home directory takes its place. -/
theorem load_save_unset : (default none).secretFile = none ∧
    ∃ files', (default none).save {} "saved.toml" = .ok files' ∧
      files'.readText "saved.toml" = .ok
        ("host = \"127.0.0.1\"\nport = 4005\nstyle = \"spawn\"\nkeep_listening = false\n" ++
          "coding_system = \"utf-8-unix\"\ndedicated_output = false\nsource_paths = []\n" ++
          "log_filter = \"swankd=info\"\n") ∧
      load files' (some "/home/user") (some "saved.toml") =
        .ok { default none with secretFile := some "/home/user/.slime-secret" } ∧
      load files' (some "/home/user") (some "saved.toml") ≠ .ok (default none) := by
  obtain ⟨files', h⟩ := exists_save (default none)
  have htext : (default none).toToml =
      "host = \"127.0.0.1\"\nport = 4005\nstyle = \"spawn\"\nkeep_listening = false\n" ++
        "coding_system = \"utf-8-unix\"\ndedicated_output = false\nsource_paths = []\n" ++
        "log_filter = \"swankd=info\"\n" := by
    decide +kernel
  have hload : (default none).completed (some "/home/user") =
      { default none with secretFile := some "/home/user/.slime-secret" } := by
    decide +kernel
  refine ⟨rfl, files', h, ?_, ?_, ?_⟩
  · rw [← htext]
    exact File.Store.readText_writeText h
  · rw [load_eq_completed h, hload]
  · rw [load_eq_completed h, hload, ne_eq, Except.ok.injEq]
    decide +kernel

end Config

end EvalServer
