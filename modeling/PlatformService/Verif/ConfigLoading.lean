import PlatformService.Lib.Layers
import PlatformService.Verif.ConfigLines

/-!
# What loading a configuration means

A setting has the value of its variable in the environment, else of the last line of the
file that assigns to it, else its default. `ps_config_load` assigns the three layers one
after the other, with the pieces that `fgets` reads in the place of the lines. For a file
without a piece that is refused there is an environment that leaves a single setting to the
file and lets it have any value a valid configuration can have, so the pieces must say what
the lines say.
-/

namespace PlatformService.Verif.ConfigLoading

open Lib Settings ConfigLines

/-- The text of a setting: a nonempty value of its variable, or what the lines leave. -/
def effectiveText (lines : List Bytes) (getenv : Bytes → Option Bytes) (s : Setting) : Bytes :=
  ((getenv (ascii s.row.env)).filter (· ≠ [])).getD (fileText lines s)

/-- Loading a file means what its lines say: a configuration that is loaded has in each setting what
the text of the setting is read as, and with a line that is not sound none is loaded. -/
structure LoadsAsWritten (path content : Bytes) (getenv : Bytes → Option Bytes) : Prop where
  effective : ∀ cfg, psConfigLoad (some { path, content }) getenv = .ok cfg →
    ∀ s : Setting, s.read (effectiveText (physicalLines content) getenv s) = .ok (cfg s)
  refuses : (∃ line ∈ physicalLines content, ¬Sound line) →
    ∃ reason, psConfigLoad (some { path, content }) getenv = .error reason

/-- The texts the defaults assign. -/
def defaultEntries : List (Setting × Bytes) :=
  settings.filterMap fun s => (some (ascii s.row.dflt)).map (Prod.mk s)

/-- The texts the environment assigns. -/
def variableEntries (getenv : Bytes → Option Bytes) : List (Setting × Bytes) :=
  settings.filterMap fun s => ((getenv (ascii s.row.env)).filter (· ≠ [])).map (Prod.mk s)

/-- The texts that the defaults, lines and the environment assign, in this order. -/
def layerEntries (lines : List Bytes) (getenv : Bytes → Option Bytes) : List (Setting × Bytes) :=
  defaultEntries ++ (lines.filterMap entry ++ variableEntries getenv)

/-- The defaults are assigned one after the other. -/
theorem defaults_eq (cfg : PsConfig) :
    settings.foldlM (fun cfg s => applyValue cfg s (ascii s.row.dflt)) cfg =
      Layers.assignAll Setting.read cfg defaultEntries := by
  unfold Layers.assignAll defaultEntries
  have table : settings.filterMap (fun s => (some (ascii s.row.dflt)).map (Prod.mk s)) =
      settings.map fun s => (s, ascii s.row.dflt) :=
    congrFun (List.filterMap_eq_map' (f := fun s : Setting => (s, ascii s.row.dflt))) settings
  rw [table, List.foldlM_map]
  rfl

/-- The variables are assigned one after the other. -/
theorem variables_eq_ok {getenv : Bytes → Option Bytes} {cfg after : PsConfig} :
    settings.foldlM (loadVariable getenv) cfg = .ok after ↔
      Layers.assignAll Setting.read cfg (variableEntries getenv) = .ok after := by
  have turn : loadVariable getenv = Layers.load Setting.read fun s =>
      .ok (((getenv (ascii s.row.env)).filter (· ≠ [])).map (Prod.mk s)) := by
    funext cfg s
    unfold loadVariable Layers.load
    beta_reduce
    cases getenv (ascii s.row.env) with
    | none => rfl
    | some text =>
      cases text with
      | nil => rfl
      | cons c text => rfl
  rw [turn, Layers.loadAll_eq_ok]
  constructor
  · rintro ⟨-, done⟩
    exact done
  · intro done
    exact ⟨fun s _ => ⟨_, rfl⟩, done⟩

/-- A readable file is loaded when all its pieces are sound and their texts are read. -/
theorem loadFile_eq_ok (path : Bytes) {content : Bytes} (free : (0 : UInt8) ∉ content) {cfg after : PsConfig} :
    loadFile cfg { path, content } = .ok after ↔
      (∀ piece ∈ fgetsAll 1023 [] content, Sound piece) ∧
        Layers.assignAll Setting.read cfg ((fgetsAll 1023 [] content).filterMap entry) =
          .ok after := by
  have free := free_of_mem_fgetsAll 1023 List.not_mem_nil free
  have turn : loadLine path = Layers.load Setting.read fun line => readLine path line.2 line.1 := by
    funext cfg line
    unfold loadLine Layers.load
    beta_reduce
    cases readLine path line.2 line.1 with
    | error reason => rfl
    | ok held =>
      cases held with
      | none => rfl
      | some made => rfl
  have whole : loadFile cfg { path, content } =
      (({ path, content } : ConfigFile).lines).foldlM (loadLine path) cfg := by
    show (_ >>= fun cfg => Except.ok cfg) = _
    cases (({ path, content } : ConfigFile).lines).foldlM (loadLine path) cfg with
    | error reason => rfl
    | ok cfg => rfl
  rw [whole, turn, Layers.loadAll_eq_ok]
  have sound_of_ok : ∀ {line : Bytes} {lineno : Nat} {held : Option (Setting × Bytes)},
      (0 : UInt8) ∉ line → readLine path lineno line = .ok held → Sound line := by
    intro line lineno held free read
    rcases readLine_cases path lineno free with ⟨sound, -⟩ | ⟨-, reason, refused⟩
    · exact sound
    · rw [refused] at read
      nomatch read
  have accepted : (∀ line ∈ ({ path, content } : ConfigFile).lines, ∃ held,
      readLine path line.2 line.1 = .ok held) ↔ ∀ piece ∈ fgetsAll 1023 [] content, Sound piece := by
    constructor
    · intro all piece member
      have placed : piece ∈ (({ path, content } : ConfigFile).lines).map Prod.fst := by
        unfold ConfigFile.lines
        rw [List.zipIdx_map_fst]
        exact member
      obtain ⟨line, listed, rfl⟩ := List.mem_map.mp placed
      obtain ⟨held, read⟩ := all line listed
      exact sound_of_ok (free line.1 member) read
    · intro all line listed
      have member : line.1 ∈ fgetsAll 1023 [] content := List.fst_mem_of_mem_zipIdx listed
      rcases readLine_cases path line.2 (free line.1 member) with ⟨-, read⟩ | ⟨unsound, -⟩
      · exact ⟨_, read⟩
      · exact absurd (all line.1 member) unsound
  rw [accepted]
  apply and_congr_right
  intro sound
  have same : Layers.entries (fun line : Bytes × Nat => readLine path line.2 line.1)
      ({ path, content } : ConfigFile).lines = (fgetsAll 1023 [] content).filterMap entry := by
    have every : ∀ line ∈ ({ path, content } : ConfigFile).lines,
        (readLine path line.2 line.1).toOption.join = entry line.1 := by
      intro line listed
      have member : line.1 ∈ fgetsAll 1023 [] content := List.fst_mem_of_mem_zipIdx listed
      rcases readLine_cases path line.2 (free line.1 member) with ⟨-, read⟩ | ⟨unsound, -⟩
      · rw [read]
        rfl
      · exact absurd (sound line.1 member) unsound
    unfold Layers.entries
    rw [List.filterMap_congr every]
    have pieces : fgetsAll 1023 [] content = (({ path, content } : ConfigFile).lines).map Prod.fst :=
      (List.zipIdx_map_fst _ _).symm
    rw [pieces, List.filterMap_map]
    rfl
  rw [same]

/-- A file is loaded when its pieces are sound and the texts of all layers are read. -/
theorem psConfigLoad_eq_ok {path content : Bytes} (free : (0 : UInt8) ∉ content)
    {getenv : Bytes → Option Bytes} {cfg : PsConfig} :
    psConfigLoad (some { path, content }) getenv = .ok cfg ↔
      (∀ piece ∈ fgetsAll 1023 [] content, Sound piece) ∧
        Layers.assignAll Setting.read zeroed (layerEntries (fgetsAll 1023 [] content) getenv) =
          .ok cfg ∧ psConfigValidate cfg = .ok () := by
  unfold psConfigLoad layerEntries
  rw [defaults_eq, Layers.bind_eq_ok, Layers.assignAll_append]
  constructor
  · rintro ⟨start, first, done⟩
    obtain ⟨middle, file, done⟩ := Layers.bind_eq_ok.mp done
    obtain ⟨final, last, done⟩ := Layers.bind_eq_ok.mp done
    obtain ⟨⟨⟩, valid, done⟩ := Layers.bind_eq_ok.mp done
    cases done
    obtain ⟨sound, pieces⟩ := (loadFile_eq_ok path free).mp file
    have rest := Layers.assignAll_append.mpr ⟨middle, pieces, variables_eq_ok.mp last⟩
    exact ⟨sound, ⟨start, first, rest⟩, valid⟩
  · rintro ⟨sound, ⟨start, first, rest⟩, valid⟩
    obtain ⟨middle, pieces, last⟩ := Layers.assignAll_append.mp rest
    have file := (loadFile_eq_ok path free).mpr ⟨sound, pieces⟩
    refine ⟨start, first, Layers.bind_eq_ok.mpr ⟨middle, file, ?_⟩⟩
    refine Layers.bind_eq_ok.mpr ⟨cfg, variables_eq_ok.mpr last, ?_⟩
    exact Layers.bind_eq_ok.mpr ⟨(), valid, rfl⟩

/-- Every default is read. -/
theorem exists_read_default (s : Setting) : ∃ value, s.read (ascii s.row.dflt) = .ok value := by
  cases s <;> exact ⟨_, rfl⟩

/-- The last text of a setting in all layers is its effective text. -/
theorem last_layers (lines : List Bytes) (getenv : Bytes → Option Bytes) (s : Setting) :
    Assoc.last (layerEntries lines getenv) s = some (effectiveText lines getenv s) := by
  unfold layerEntries defaultEntries variableEntries effectiveText fileText
  rw [Assoc.last_append, Assoc.last_append, last_entries,
    Assoc.last_filterMap (fun s : Setting => some (ascii s.row.dflt)) (mem_settings s),
    Assoc.last_filterMap (fun s : Setting => (getenv (ascii s.row.env)).filter (· ≠ []))
      (mem_settings s)]
  cases (getenv (ascii s.row.env)).filter (· ≠ []) with
  | some text => rfl
  | none =>
    cases (lines.filterMap (assigned s)).getLast? with
    | some text => rfl
    | none => rfl

/-- A loaded configuration has in each setting what its text after the pieces is read as. -/
theorem read_effectiveText {path content : Bytes} (free : (0 : UInt8) ∉ content)
    {getenv : Bytes → Option Bytes} {cfg : PsConfig}
    (loaded : psConfigLoad (some { path, content }) getenv = .ok cfg) (s : Setting) :
    s.read (effectiveText (fgetsAll 1023 [] content) getenv s) = .ok (cfg s) := by
  obtain ⟨-, layers, -⟩ := (psConfigLoad_eq_ok free).mp loaded
  have last := Layers.read_last layers s
  rw [last_layers] at last
  exact last

/-- A piece that a loaded file holds is not refused. -/
theorem not_refused_of_loaded {path content : Bytes} (free : (0 : UInt8) ∉ content)
    {getenv : Bytes → Option Bytes} {cfg : PsConfig}
    (loaded : psConfigLoad (some { path, content }) getenv = .ok cfg) :
    ∀ piece ∈ fgetsAll 1023 [] content, ¬Refused piece := by
  obtain ⟨sound, layers, -⟩ := (psConfigLoad_eq_ok free).mp loaded
  have readable := Layers.exists_assignAll.mp ⟨cfg, layers⟩
  intro piece member refused
  rcases refused with unsound | ⟨s, text, made, unread⟩
  · exact unsound (sound piece member)
  · rw [assigned_eq, Option.map_eq_some_iff] at made
    obtain ⟨⟨other, value⟩, picked, rfl⟩ := made
    obtain ⟨from', same⟩ := Option.filter_eq_some_iff.mp picked
    have same : other = s := by simpa using same
    subst same
    have stored : (other, value) ∈ layerEntries (fgetsAll 1023 [] content) getenv := by
      rw [layerEntries, List.mem_append, List.mem_append]
      exact Or.inr (Or.inl (List.mem_filterMap.mpr ⟨piece, member, from'⟩))
    obtain ⟨read, denoted⟩ := readable _ stored
    exact unread read denoted

/-- When no piece and no variable is refused, the file is loaded if the result is valid. -/
theorem exists_loaded (path : Bytes) {content : Bytes} (free : (0 : UInt8) ∉ content)
    {getenv : Bytes → Option Bytes} (accepted : ∀ piece ∈ fgetsAll 1023 [] content, ¬Refused piece)
    (readable : ∀ (s : Setting) (text : Bytes),
      (getenv (ascii s.row.env)).filter (· ≠ []) = some text → ∃ value, s.read text = .ok value) :
    ∃ cfg, (∀ s : Setting, s.read (effectiveText (fgetsAll 1023 [] content) getenv s) =
        .ok (cfg s)) ∧
      (psConfigValidate cfg = .ok () → psConfigLoad (some { path, content }) getenv = .ok cfg) := by
  have sound : ∀ piece ∈ fgetsAll 1023 [] content, Sound piece := by
    intro piece member
    by_contra unsound
    exact accepted piece member (Or.inl unsound)
  have texts : ∀ made ∈ layerEntries (fgetsAll 1023 [] content) getenv,
      ∃ value, Setting.read made.1 made.2 = .ok value := by
    intro made stored
    rw [layerEntries, List.mem_append, List.mem_append] at stored
    rcases stored with dflt | line | variable'
    · obtain ⟨s, -, shape⟩ := List.mem_filterMap.mp dflt
      cases shape
      exact exists_read_default s
    · obtain ⟨piece, member, shape⟩ := List.mem_filterMap.mp line
      by_contra unread
      refine accepted piece member (Or.inr ⟨made.1, made.2, ?_, ?_⟩)
      · rw [assigned_eq, shape]
        simp
      · intro value denoted
        exact unread ⟨value, denoted⟩
    · obtain ⟨s, -, shape⟩ := List.mem_filterMap.mp variable'
      obtain ⟨text, given, rfl⟩ := Option.map_eq_some_iff.mp shape
      exact readable s text given
  obtain ⟨cfg, layers⟩ : ∃ cfg, Layers.assignAll Setting.read zeroed
      (layerEntries (fgetsAll 1023 [] content) getenv) = .ok cfg :=
    Layers.exists_assignAll.mpr texts
  refine ⟨cfg, ?_, ?_⟩
  · intro s
    have last := Layers.read_last layers s
    rw [last_layers] at last
    exact last
  · intro valid
    exact (psConfigLoad_eq_ok free).mpr ⟨sound, layers, valid⟩

/-! ## Environments that allow a setting any valid value -/

/-- The value of `jwt_secret`. -/
def jwtSecretOf (cfg : PsConfig) : { text : Bytes // text.length < secretMax } := cfg .jwtSecret

/-- The value of `cors_allowed_origins`. -/
def originsOf (cfg : PsConfig) : { text : Bytes // text.length < Http.strMax } :=
  cfg .corsAllowedOrigins

/-- The conditions that `ps_config_validate` checks. -/
structure Valid (cfg : PsConfig) : Prop where
  secret : jwtSecretMin ≤ (jwtSecretOf cfg).1.length
  accessTtl : 0 < Int32.toInt (cfg .accessTokenTtlS)
  refreshTtls : Int32.toInt (cfg .refreshIdleTtlS) ≤ Int32.toInt (cfg .refreshAbsoluteTtlS)
  iterations : 1000 ≤ Int32.toInt (cfg .kdfIterations)
  shortest : 8 ≤ Int32.toInt (cfg .passwordMinLength)
  lengths : Int32.toInt (cfg .passwordMinLength) ≤ Int32.toInt (cfg .passwordMaxLength)
  threshold : 1 ≤ Int32.toInt (cfg .lockoutThreshold)
  batch : 1 ≤ Int32.toInt (cfg .maintenanceBatchSize)
  entries : 1 ≤ Int32.toInt (cfg .ratelimitMaxEntries)
  body : 1 ≤ Int32.toInt (cfg .maxBodyBytes)
  headers : 1 ≤ Int32.toInt (cfg .maxHeaderBytes)
  requestLine : 1 ≤ Int32.toInt (cfg .maxRequestLineBytes)
  headerCount : 1 ≤ Int32.toInt (cfg .maxHeaderCount)
  origins : Eq (α := Bool) (cfg .corsAllowCredentials) true →
    Http.corsOriginsContainsWildcard (originsOf cfg).1 = false

/-- `ps_config_validate` accepts exactly the configurations that meet its conditions. -/
theorem psConfigValidate_eq_ok {cfg : PsConfig} : psConfigValidate cfg = .ok () ↔ Valid cfg := by
  have none : psConfigValidate cfg = .ok () ↔ ∀ check ∈ checks cfg, check.1 = false := by
    unfold psConfigValidate
    cases found : (checks cfg).find? Prod.fst with
    | none =>
      rw [List.find?_eq_none] at found
      simpa using found
    | some check =>
      obtain ⟨-, member⟩ := And.intro (List.find?_some found) (List.mem_of_find?_eq_some found)
      have fails : check.1 = true := List.find?_some found
      constructor
      · intro done
        nomatch done
      · intro all
        rw [all check member] at fails
        contradiction
  rw [none]
  unfold checks
  simp only [List.forall_mem_cons, decide_eq_false_iff_not, Bool.or_eq_false_iff, Int.not_lt, not_le]
  constructor
  · rintro ⟨-, secret, access, refresh, iterations, ⟨shortest, lengths⟩, threshold, batch, entries,
      ⟨⟨⟨body, headers⟩, requestLine⟩, headerCount⟩, origins, -⟩
    refine ⟨not_lt.mp secret, access, refresh, iterations, shortest, lengths, threshold, batch,
      entries, body, headers, requestLine, headerCount, ?_⟩
    intro credentials
    rw [show cfg .corsAllowCredentials = true from credentials, Bool.true_and] at origins
    exact origins
  · intro valid
    have secret := valid.secret
    have given : ¬(jwtSecretOf cfg).1 = [] := by
      intro empty
      rw [empty] at secret
      contradiction
    refine ⟨given, not_lt.mpr secret, valid.accessTtl, valid.refreshTtls, valid.iterations,
      ⟨valid.shortest, valid.lengths⟩, valid.threshold, valid.batch, valid.entries,
      ⟨⟨⟨valid.body, valid.headers⟩, valid.requestLine⟩, valid.headerCount⟩, ?_, List.forall_mem_nil _⟩
    exact Bool.and_eq_false_imp.mpr valid.origins

/-- A text for each setting with which every other setting can have any valid value. -/
def widestText : Setting → String
  | .corsAllowedOrigins => ","
  | .refreshIdleTtlS => "-2147483648"
  | .refreshAbsoluteTtlS => "2147483647"
  | .passwordMinLength => "8"
  | .passwordMaxLength => "2147483647"
  | .jwtSecret => "0123456789abcdef0123456789abcdef"
  | .bootstrapAdminUsername | .bootstrapAdminEmail | .bootstrapAdminPassword => "admin"
  | s => s.row.dflt

/-- The configuration of these texts. -/
def widest : PsConfig := fun s =>
  match s.read (ascii (widestText s)) with
  | .ok value => value
  | .error _ => zeroed s

/-- Each of the texts is read. -/
theorem read_widestText (s : Setting) : s.read (ascii (widestText s)) = .ok (widest s) := by
  cases s <;> rfl

/-- The list of one comma holds no wildcard. -/
theorem no_wildcard : Http.corsOriginsContainsWildcard (ascii ",") = false := by
  unfold Http.corsOriginsContainsWildcard
  rw [Http.wildcardLoop]
  rfl

/-- The configuration of the texts is valid. -/
theorem valid_widest : Valid widest where
  secret := by decide +kernel
  accessTtl := by decide +kernel
  refreshTtls := by decide +kernel
  iterations := by decide +kernel
  shortest := by decide +kernel
  lengths := by decide +kernel
  threshold := by decide +kernel
  batch := by decide +kernel
  entries := by decide +kernel
  body := by decide +kernel
  headers := by decide +kernel
  requestLine := by decide +kernel
  headerCount := by decide +kernel
  origins := fun _ => no_wildcard

/-- A value that some valid configuration has in a setting is valid beside these texts. -/
theorem valid_update {cfg : PsConfig} (valid : Valid cfg) (s : Setting) :
    Valid (Function.update widest s (cfg s)) := by
  have value : ∀ t : Setting, Function.update widest s (cfg s) t = cfg t ∧ s = t ∨
      Function.update widest s (cfg s) t = widest t ∧ s ≠ t := by
    intro t
    by_cases same : s = t
    · subst same
      exact Or.inl ⟨Function.update_self .., rfl⟩
    · exact Or.inr ⟨Function.update_of_ne (Ne.symm same) .., same⟩
  have single : ∀ (t : Setting) (holds : t.Value → Prop), holds (cfg t) → holds (widest t) →
      holds (Function.update widest s (cfg s) t) := by
    intro t holds given wide
    rcases value t with ⟨same, -⟩ | ⟨same, -⟩
    · rw [same]
      exact given
    · rw [same]
      exact wide
  have largest : ∀ n : Int32, n.toInt ≤ 2147483647 := fun n => Int.le_of_lt_add_one (Int32.toInt_lt n)
  have smallest : ∀ n : Int32, -2147483648 ≤ n.toInt := fun n => Int32.le_toInt n
  refine {
    secret := single .jwtSecret (fun secret => jwtSecretMin ≤ List.length (Subtype.val secret))
      valid.secret valid_widest.secret
    accessTtl := single .accessTokenTtlS (fun n => 0 < Int32.toInt n) valid.accessTtl
      valid_widest.accessTtl
    refreshTtls := ?_
    iterations := single .kdfIterations (fun n => 1000 ≤ Int32.toInt n) valid.iterations
      valid_widest.iterations
    shortest := single .passwordMinLength (fun n => 8 ≤ Int32.toInt n) valid.shortest
      valid_widest.shortest
    lengths := ?_
    threshold := single .lockoutThreshold (fun n => 1 ≤ Int32.toInt n) valid.threshold
      valid_widest.threshold
    batch := single .maintenanceBatchSize (fun n => 1 ≤ Int32.toInt n) valid.batch
      valid_widest.batch
    entries := single .ratelimitMaxEntries (fun n => 1 ≤ Int32.toInt n) valid.entries
      valid_widest.entries
    body := single .maxBodyBytes (fun n => 1 ≤ Int32.toInt n) valid.body valid_widest.body
    headers := single .maxHeaderBytes (fun n => 1 ≤ Int32.toInt n) valid.headers
      valid_widest.headers
    requestLine := single .maxRequestLineBytes (fun n => 1 ≤ Int32.toInt n) valid.requestLine
      valid_widest.requestLine
    headerCount := single .maxHeaderCount (fun n => 1 ≤ Int32.toInt n) valid.headerCount
      valid_widest.headerCount
    origins := ?_ }
  · rcases value .refreshIdleTtlS with ⟨idle, rfl⟩ | ⟨idle, -⟩
    · have absolute : Function.update widest .refreshIdleTtlS (cfg .refreshIdleTtlS)
          .refreshAbsoluteTtlS = Int32.ofInt 2147483647 := Function.update_of_ne (by decide) ..
      rw [absolute]
      exact largest _
    · have least : widest .refreshIdleTtlS = Int32.ofInt (-2147483648) := rfl
      rw [idle, least]
      exact smallest _
  · rcases value .passwordMinLength with ⟨shortest, rfl⟩ | ⟨shortest, -⟩
    · have longest : Function.update widest .passwordMinLength (cfg .passwordMinLength)
          .passwordMaxLength = Int32.ofInt 2147483647 := Function.update_of_ne (by decide) ..
      rw [longest]
      exact largest _
    · have least : widest .passwordMinLength = Int32.ofInt 8 := rfl
      rw [shortest, least]
      exact single .passwordMaxLength (fun n => 8 ≤ Int32.toInt n)
        (le_trans valid.shortest valid.lengths) (by decide +kernel)
  · intro credentials
    rcases value .corsAllowCredentials with ⟨-, rfl⟩ | ⟨unchanged, -⟩
    · exact no_wildcard
    · rw [unchanged] at credentials
      exact absurd (show false = true from credentials) (by decide)

/-- The environment of these texts, but for the variable of a setting. -/
def variablesBut (left : Option Setting) : Bytes → Option Bytes := fun name =>
  ((settings.find? fun s => ascii s.row.env = name).filter fun s => some s ≠ left).map fun s =>
    ascii (widestText s)

/-- The variables of this environment are the texts. -/
theorem variablesBut_env (left : Option Setting) (s : Setting) :
    (variablesBut left (ascii s.row.env)).filter (· ≠ []) =
      if some s = left then none else some (ascii (widestText s)) := by
  have found : settings.find? (fun other => ascii other.row.env = ascii s.row.env) = some s :=
    (find_settings (fun s => ascii s.row.env) (by decide +kernel)).mpr rfl
  have nonempty : ascii (widestText s) ≠ [] := by
    cases s <;> decide
  unfold variablesBut
  rw [found]
  by_cases out : some s = left
  · subst out
    simp
  · simp [out, nonempty]

/-- In this environment a file without refused pieces is loaded, when the setting left to the file
gets a value that a valid configuration can have. -/
theorem exists_loaded_variablesBut (path : Bytes) {content : Bytes}
    (free : (0 : UInt8) ∉ content)
    (accepted : ∀ piece ∈ fgetsAll 1023 [] content, ¬Refused piece) (left : Option Setting)
    (allowed : ∀ s ∈ left, ∃ value, s.read (fileText (fgetsAll 1023 [] content) s) = .ok value ∧
      Allowed s value) :
    ∃ cfg, psConfigLoad (some { path, content }) (variablesBut left) = .ok cfg ∧
      ∀ s : Setting, s.read (effectiveText (fgetsAll 1023 [] content) (variablesBut left) s) =
        .ok (cfg s) := by
  have readable : ∀ (s : Setting) (text : Bytes),
      (variablesBut left (ascii s.row.env)).filter (· ≠ []) = some text →
        ∃ value, s.read text = .ok value := by
    intro s text given
    rw [variablesBut_env] at given
    split at given
    · contradiction
    · cases given
      exact ⟨_, read_widestText s⟩
  obtain ⟨cfg, effective, loaded⟩ := exists_loaded path free accepted readable
  refine ⟨cfg, loaded ?_, effective⟩
  have others : ∀ s, some s ≠ left → cfg s = widest s := by
    intro s kept
    have read := effective s
    unfold effectiveText at read
    rw [variablesBut_env, if_neg kept, Option.getD_some, read_widestText] at read
    exact (Except.ok.inj read).symm
  rw [psConfigValidate_eq_ok]
  cases left with
  | none =>
    have same : cfg = widest := funext fun s => others s (by simp)
    rw [same]
    exact valid_widest
  | some s =>
    obtain ⟨value, read, donor, rfl, valid⟩ := allowed s rfl
    have own := effective s
    unfold effectiveText at own
    rw [variablesBut_env, if_pos rfl, Option.getD_none, read] at own
    have same : cfg = Function.update widest s (donor s) := by
      funext t
      by_cases here : s = t
      · subst here
        rw [Function.update_self]
        exact (Except.ok.inj own).symm
      · rw [Function.update_of_ne (Ne.symm here)]
        apply others
        rintro there
        exact here (Option.some.inj there).symm
    rw [same]
    exact valid_update (psConfigValidate_eq_ok.mp valid) s

/-- Loading a file means what its lines say, in every environment, exactly when the pieces that are
read say what the lines say. -/
theorem loads_as_written_iff (path : Bytes) {content : Bytes} (free : (0 : UInt8) ∉ content) :
    (∀ getenv, LoadsAsWritten path content getenv) ↔ ReadsByLine content := by
  constructor
  · intro written
    by_cases refused : ∃ piece ∈ fgetsAll 1023 [] content, Refused piece
    · exact Or.inl refused
    · have accepted : ∀ piece ∈ fgetsAll 1023 [] content, ¬Refused piece :=
        fun piece member bad => refused ⟨piece, member, bad⟩
      right
      constructor
      · intro line member
        by_contra unsound
        obtain ⟨reason, failed⟩ := (written (variablesBut none)).refuses ⟨line, member, unsound⟩
        obtain ⟨cfg, loaded, -⟩ := exists_loaded_variablesBut path free accepted none
          (by simp)
        rw [failed] at loaded
        nomatch loaded
      · intro s value read allowed
        obtain ⟨cfg, loaded, effective⟩ := exists_loaded_variablesBut path free accepted
          (some s) (by
            rintro t here
            cases here
            exact ⟨value, read, allowed⟩)
        have byPieces := effective s
        have byLines := (written (variablesBut (some s))).effective cfg loaded s
        unfold effectiveText at byPieces byLines
        rw [variablesBut_env, if_pos rfl, Option.getD_none] at byPieces byLines
        rw [byLines, ← byPieces, read]
  · intro faithful getenv
    cases outcome : psConfigLoad (some { path, content }) getenv with
    | error reason =>
      constructor
      · intro cfg loaded
        rw [outcome] at loaded
        nomatch loaded
      · intro _
        exact ⟨reason, outcome⟩
    | ok cfg =>
      have accepted := not_refused_of_loaded free outcome
      rcases faithful with ⟨piece, member, refused⟩ | ⟨sound, same⟩
      · exact absurd refused (accepted piece member)
      · constructor
        · intro other loaded s
          rw [outcome] at loaded
          cases loaded
          have read := read_effectiveText free outcome s
          unfold effectiveText at read ⊢
          cases given : (getenv (ascii s.row.env)).filter (· ≠ []) with
          | some text =>
            rw [given] at read
            exact read
          | none =>
            rw [given] at read
            have valid := ((psConfigLoad_eq_ok free).mp outcome).2.2
            exact same s (cfg s) read ⟨cfg, rfl, valid⟩
        · rintro ⟨line, member, unsound⟩
          exact absurd (sound line member) unsound

/-- A file of short lines is loaded as it is written. -/
theorem loads_as_written_short : LoadsAsWritten (ascii "platform.conf")
    (ascii "# local\nserver.port = 9000\n") (fun _ => none) :=
  (loads_as_written_iff (ascii "platform.conf") (by decide)).mpr
    (readsByLine_of_short (by decide)) _

/-- A comment of 1039 bytes, of which the last sixteen spell an assignment. -/
def longComment : Bytes := 35 :: (List.replicate 1022 120 ++ ascii "server.port=9000")

/-- An environment with a secret and nothing else. -/
def secretOnly : Bytes → Option Bytes := fun name =>
  if name = ascii "PS_JWT_SECRET" then some (ascii "0123456789abcdef0123456789abcdef") else none

/-- The port of what was loaded. -/
def portOf : Except Bytes PsConfig → Nat
  | .ok cfg => UInt16.toNat (cfg .port)
  | .error _ => 0

/-- The end of the long comment is read as an assignment. -/
theorem long_comment_assigns :
    ¬LoadsAsWritten (ascii "platform.conf") longComment secretOnly := by
  intro written
  have port : portOf (psConfigLoad (some { path := ascii "platform.conf", content := longComment })
      secretOnly) = 9000 := by decide +kernel
  have text : effectiveText (physicalLines longComment) secretOnly .port = ascii "8443" := by
    decide +kernel
  have effective := written.effective
  generalize psConfigLoad (some { path := ascii "platform.conf", content := longComment })
    secretOnly = outcome at port effective
  cases outcome with
  | error reason =>
    have none : (0 : Nat) = 9000 := port
    exact absurd none (by decide)
  | ok cfg =>
    have read := effective cfg rfl .port
    rw [text] at read
    have dflt : (8443 : UInt16) = cfg .port := Except.ok.inj read
    have number : UInt16.toNat (cfg .port) = 9000 := port
    rw [← dflt] at number
    exact absurd number (by decide)

end PlatformService.Verif.ConfigLoading
