import DbClient.Proofs.Text.Natural
import DbClient.Proofs.Text.RoundTrip
import DbClient.Proofs.Text.Words
import DbClient.Session.Basic

/-!
# Targets that the environment names

A library that is set, and not blank, is all that counts; without one, host and port name a server,
each of which may be left out. What cannot be used is not always refused: a variable whose bytes are
no text counts as unset, and so does a data directory without a name.
-/

namespace DbClient

/-! ## What variables say -/

/-- The host that a variable names: its text without the white space around it, unless there is
nothing but white space. -/
def NamesHost (text? : Option String) (host : String) : Prop :=
  match text? with
  | none => host = "localhost"
  | some s => s.isBlankText = false ∧ Text.Trims s.toList host.toList

/-- The port that a text gives: a number of sixteen bits, with white space around it or without. -/
def WritesPort (s : String) (port : Nat) : Prop :=
  ∃ number : String, Text.Trims s.toList number.toList ∧ Text.WritesNatural number port ∧
    port ≤ 65535

def NamesPort (text? : Option String) (port : Nat) : Prop :=
  match text? with
  | none => port = 3306
  | some s => WritesPort s port

theorem trims_iff_eq_trimBlank {s t : String} :
    Text.Trims s.toList t.toList ↔ t = s.trimBlank := by
  rw [Text.trims_iff, String.trimBlank, ← String.toList_inj, String.toList_ofList]

theorem exists_namesHost_iff {text? : Option String} :
    (∃ host, NamesHost text? host) ↔ ∀ s ∈ text?, s.isBlankText = false := by
  cases text? with
  | none => simp [NamesHost]
  | some s => simp [NamesHost, trims_iff_eq_trimBlank]

theorem exists_namesPort_iff {text? : Option String} :
    (∃ port, NamesPort text? port) ↔ ∀ s ∈ text?, ∃ port, WritesPort s port := by
  cases text? <;> simp [NamesPort]

theorem readNatural_trimBlank_eq_ok_iff {s : String} {port : Nat} :
    Text.readNatural 65535 s.trimBlank = .ok port ↔ WritesPort s port := by
  simp only [Text.readNatural_eq_ok_iff, WritesPort, trims_iff_eq_trimBlank, exists_eq_left]

namespace Environment

variable {env : Environment} {host path : String} {port : Nat} {database : Database}

theorem serverPort_eq_ok_iff :
    env.serverPort = .ok port ↔ NamesPort (text? env.port) port := by
  unfold serverPort
  cases text? env.port with
  | none => simp [NamesPort, defaultPort, eq_comm]
  | some raw =>
    simp only [NamesPort, ← readNatural_trimBlank_eq_ok_iff]
    cases Text.readNatural 65535 raw.trimBlank <;> simp

theorem isBlankText_localhost : "localhost".isBlankText = false := by decide

theorem trimBlank_localhost : "localhost".trimBlank = "localhost" := by decide

/-- The host of a server is blank, or it is trimmed. -/
theorem namesHost_iff :
    NamesHost (text? env.host) host ↔
      ((text? env.host).getD "localhost").isBlankText = false ∧
        host = ((text? env.host).getD "localhost").trimBlank := by
  cases text? env.host with
  | none => simp [NamesHost, isBlankText_localhost, trimBlank_localhost]
  | some raw => simp [NamesHost, trims_iff_eq_trimBlank]

theorem target_of_library (h : text? env.library = some path) :
    env.target =
      if path.isBlankText then .error .blankLibrary else .ok (.embedded path env.database) := by
  rw [target, h]

theorem target_of_no_library (h : text? env.library = none) :
    env.target =
      if ((text? env.host).getD "localhost").isBlankText then .error .blankHost
      else env.serverPort.map (.remote ((text? env.host).getD "localhost").trimBlank) := by
  rw [target, h]

/-- A server is named where no library is, by a host and a port that can be used. -/
theorem target_eq_remote_iff :
    env.target = .ok (.remote host port) ↔
      text? env.library = none ∧ NamesHost (text? env.host) host ∧
        NamesPort (text? env.port) port := by
  rw [namesHost_iff, ← serverPort_eq_ok_iff]
  cases hlibrary : text? env.library with
  | some library =>
    rw [target_of_library hlibrary]
    split <;> simp
  | none =>
    rw [target_of_no_library hlibrary]
    split
    · next hblank => simp [hblank]
    · next hblank => cases env.serverPort <;> simp [hblank, Except.map, eq_comm]

theorem target_eq_embedded_iff :
    env.target = .ok (.embedded path database) ↔
      text? env.library = some path ∧ path.isBlankText = false ∧ database = env.database := by
  cases hlibrary : text? env.library with
  | some library =>
    rw [target_of_library hlibrary]
    split
    · next hblank =>
      constructor
      · rintro ⟨⟩
      · rintro ⟨⟨⟩, hpath, -⟩
        rw [hblank] at hpath
        cases hpath
    · next hblank =>
      constructor
      · rintro ⟨⟩
        exact ⟨rfl, Bool.eq_false_iff.2 hblank, rfl⟩
      · rintro ⟨⟨⟩, -, rfl⟩
        rfl
  | none =>
    rw [target_of_no_library hlibrary]
    split
    · simp
    · cases env.serverPort <;> simp [Except.map]

theorem exists_remote_iff :
    (∃ host port, env.target = .ok (.remote host port)) ↔
      text? env.library = none ∧ (∀ s ∈ text? env.host, s.isBlankText = false) ∧
        ∀ s ∈ text? env.port, ∃ port, WritesPort s port := by
  simp only [target_eq_remote_iff, exists_and_left, exists_and_right, exists_namesHost_iff,
    exists_namesPort_iff]

theorem exists_embedded_iff :
    (∃ path database, env.target = .ok (.embedded path database)) ↔
      ∃ path, text? env.library = some path ∧ path.isBlankText = false := by
  simp only [target_eq_embedded_iff, exists_and_left, exists_eq, and_true]

/-! ## Variables that are text -/

/-- The environment in which these are the texts of the variables. -/
def ofTexts (library dataDirectory host port : Option String) : Environment where
  library := library.map Utf8.encode
  dataDirectory := dataDirectory.map Utf8.encode
  host := host.map Utf8.encode
  port := port.map Utf8.encode

theorem text?_map_encode (value? : Option String) : text? (value?.map Utf8.encode) = value? := by
  cases value? with
  | none => rfl
  | some s => exact Utf8.decode?_encode s

/-- A server is named exactly if there is no library and what host and port say can be used. It is
the server that they name. A library that is set decides alone. -/
theorem target_ofTexts (library dataDirectory host port : Option String) :
    ((∃ name number, (ofTexts library dataDirectory host port).target = .ok (.remote name number)) ↔
      library = none ∧ (∀ s ∈ host, s.isBlankText = false) ∧
        ∀ s ∈ port, ∃ number, WritesPort s number) ∧
    (∀ name number,
      (ofTexts library dataDirectory host port).target = .ok (.remote name number) ↔
        library = none ∧ NamesHost host name ∧ NamesPort port number) ∧
    ∀ path, library = some path → path.isBlankText = false →
      ∃ database, ∀ hostBytes portBytes : Option Bytes,
        { ofTexts library dataDirectory host port with
          host := hostBytes, port := portBytes }.target = .ok (.embedded path database) := by
  refine ⟨?_, fun name number => ?_, fun path hlibrary hpath => ?_⟩
  · simp only [exists_remote_iff, ofTexts, text?_map_encode]
  · simp only [target_eq_remote_iff, ofTexts, text?_map_encode]
  · refine ⟨(ofTexts library dataDirectory host port).database, fun hostBytes portBytes => ?_⟩
    exact target_eq_embedded_iff.2 ⟨(text?_map_encode library).trans hlibrary, hpath, rfl⟩

/-- White space around a host or a port does not count, nor do a plus sign and zeros in front of the
number. A library decides alone. -/
theorem target_ofTexts_of_padded :
    (ofTexts none none (some " db ") (some "\t+00080 ")).target = .ok (.remote "db" 80) ∧
      ∃ database, ∀ hostBytes portBytes : Option Bytes,
        { ofTexts (some " lib.so") (some "data") none none with
          host := hostBytes, port := portBytes }.target = .ok (.embedded " lib.so" database) := by
  constructor
  · refine ((target_ofTexts none none (some " db ") (some "\t+00080 ")).2.1 "db" 80).2 ⟨rfl, ?_, ?_⟩
    · exact ⟨by decide, trims_iff_eq_trimBlank.2 (by decide)⟩
    · refine ⟨"+00080", trims_iff_eq_trimBlank.2 (by decide), ⟨"00080".toList, ?_, .inr rfl⟩,
        by decide⟩
      exact ⟨by decide, by simp, by decide⟩
  · exact (target_ofTexts (some " lib.so") (some "data") none none).2.2 " lib.so" rfl (by decide)

/-! ## Variables that cannot be used -/

/-- Whether a variable is set, but to bytes that are no text or to a text that does not fit. -/
def Unfit (fits : String → Prop) (value : Option Bytes) : Prop :=
  value ≠ none ∧ ∀ s ∈ text? value, ¬fits s

/-- Whether a variable that counts cannot be used: of a library and its data directory, or of a
host and its port where no library is set. -/
def Misconfigured (env : Environment) : Prop :=
  if env.library = none then
    Unfit (·.isBlankText = false) env.host ∨ Unfit (fun s => ∃ port, WritesPort s port) env.port
  else
    Unfit (·.isBlankText = false) env.library ∨ Unfit (·.isBlankText = false) env.dataDirectory

/-- A variable, if it is a text. -/
def legible (value : Option Bytes) : Option Bytes :=
  value.filter fun bytes => (Utf8.decode? bytes).isSome

/-- The environment as it is heeded: without variables that are no text, and without a data
directory that is blank. -/
def heeded (env : Environment) : Environment where
  library := legible env.library
  dataDirectory := env.dataDirectory.filter fun bytes =>
    (Utf8.decode? bytes).any fun dir => !dir.isBlankText
  host := legible env.host
  port := legible env.port

theorem text?_legible (value : Option Bytes) : text? (legible value) = text? value := by
  cases value with
  | none => rfl
  | some bytes =>
    cases hs : Utf8.decode? bytes <;> simp [legible, text?, Option.filter, hs]

theorem legible_eq_none_iff {value : Option Bytes} : legible value = none ↔ text? value = none := by
  cases value with
  | none => simp [legible, text?]
  | some bytes => simp [legible, text?, Option.filter]

theorem database_heeded (env : Environment) : env.heeded.database = env.database := by
  unfold database heeded
  cases env.dataDirectory with
  | none => rfl
  | some bytes =>
    cases hdir : Utf8.decode? bytes with
    | none => simp [text?, Option.filter, hdir]
    | some dir =>
      by_cases hblank : dir.isBlankText = true <;> simp [text?, Option.filter, hdir, hblank]

theorem target_heeded (env : Environment) : env.heeded.target = env.target := by
  unfold target serverPort
  rw [database_heeded]
  simp only [heeded, text?_legible]

theorem unfit_legible_iff {fits : String → Prop} {value : Option Bytes} :
    Unfit fits (legible value) ↔ ∃ s ∈ text? value, ¬fits s := by
  rw [Unfit, text?_legible, ne_eq, legible_eq_none_iff]
  cases text? value <;> simp

/-- A data directory that is heeded is one that can be used. -/
theorem not_unfit_dataDirectory_heeded (env : Environment) :
    ¬Unfit (·.isBlankText = false) env.heeded.dataDirectory := by
  rintro ⟨hset, hunfit⟩
  obtain ⟨bytes, hbytes⟩ := Option.ne_none_iff_exists'.1 hset
  obtain ⟨-, hany⟩ := Option.filter_eq_some_iff.1 hbytes
  obtain ⟨dir, hdir, hblank⟩ := (Option.any_eq_true _ _).1 hany
  rw [hbytes, text?, Option.bind_some] at hunfit
  exact hunfit dir hdir (by simpa using hblank)

theorem misconfigured_heeded_iff :
    env.heeded.Misconfigured ↔
      (∃ path ∈ text? env.library, path.isBlankText = true) ∨
        text? env.library = none ∧ ((∃ s ∈ text? env.host, s.isBlankText = true) ∨
          ∃ s ∈ text? env.port, ¬∃ port, WritesPort s port) := by
  have hdirectory := not_unfit_dataDirectory_heeded env
  unfold Misconfigured
  simp only [hdirectory]
  simp only [heeded, unfit_legible_iff, legible_eq_none_iff, or_false, Bool.not_eq_false]
  cases text? env.library <;> simp

/-- No target is named where neither a server nor a library is. -/
theorem exists_error_iff :
    (∃ err, env.target = .error err) ↔
      (¬∃ path database, env.target = .ok (.embedded path database)) ∧
        ¬∃ host port, env.target = .ok (.remote host port) := by
  cases env.target with
  | error err => simp
  | ok target => cases target <;> simp

theorem exists_error_iff_misconfigured_heeded :
    (∃ err, env.target = .error err) ↔ env.heeded.Misconfigured := by
  rw [exists_error_iff, exists_embedded_iff, exists_remote_iff, misconfigured_heeded_iff]
  cases text? env.library with
  | none => simp [imp_iff_not_or]
  | some path => simp

/-- Variables that cannot be used are refused as far as they are heeded. Those that are not, an
undecodable one or a blank data directory, are replaced by what counts when they are unset. -/
theorem refused_iff_misconfigured_heeded (env : Environment) :
    ((∃ err, env.target = .error err ∧ Session.ofEnvironment env = .error err) ↔
        env.heeded.Misconfigured) ∧
      env.target = env.heeded.target ∧
        Session.ofEnvironment env = Session.ofEnvironment env.heeded := by
  refine ⟨?_, (target_heeded env).symm, ?_⟩
  · rw [← exists_error_iff_misconfigured_heeded]
    refine exists_congr fun err => and_iff_left_of_imp fun herr => ?_
    rw [Session.ofEnvironment, herr]
    rfl
  · rw [Session.ofEnvironment, Session.ofEnvironment, target_heeded]

/-- With a blank data directory a database in memory is opened, and with a library that is no text
the server that counts where no variable is set is named. -/
theorem misconfigured_not_always_refused :
    (¬∀ env : Environment, env.Misconfigured → ∃ err, env.target = .error err) ∧
      (⟨some (Utf8.encode "/opt/lib.so"), some [], none, none⟩ : Environment).target =
        .ok (.embedded "/opt/lib.so" .memory) ∧
      (⟨some [0xff], none, none, none⟩ : Environment).Misconfigured ∧
      (⟨some [0xff], none, none, none⟩ : Environment).target = .ok (.remote "localhost" 3306) := by
  have hdirectory : (⟨some (Utf8.encode "/opt/lib.so"), some [], none, none⟩ : Environment).target =
      .ok (.embedded "/opt/lib.so" .memory) := by decide
  refine ⟨fun hrefused => ?_, hdirectory, .inl ⟨by simp, by decide⟩, by decide⟩
  obtain ⟨err, herr⟩ := hrefused ⟨some (Utf8.encode "/opt/lib.so"), some [], none, none⟩
    (.inr ⟨by simp, by decide⟩)
  rw [hdirectory] at herr
  cases herr

end Environment
end DbClient
