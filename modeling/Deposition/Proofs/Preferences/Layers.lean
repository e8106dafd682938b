import Deposition.CommandLine.Program
import Deposition.Proofs.Files.Entries
import Deposition.Proofs.Preferences.File
import Deposition.Proofs.Text.Trimming

/-!
# Layers of settings

Every field of the preferences has its layers, from the highest to the lowest: a flag on the command
line, a variable of the environment, the settings file, and the usual value. Not every field has all
of them, and a layer need not say anything about a field. The field has the value of the highest
layer that gives one (`Deposition.Preferences.Highest`).

What counts as giving a value differs from field to field. A blank variable gives no server but says
that there is no credential; zero bins can be asked for by a flag or in the file, and not in a
variable. `Deposition.Preferences.Layered` has the layers of each field side by side, and
`Deposition.Preferences.preferences_layered` says that they are what the program goes by.
-/

namespace Deposition

namespace Preferences

/-! ### The highest layer -/

/-- **The value of the highest layer that gives one.** A layer is the values that it gives, and the
first layer of the list is the highest. -/
inductive Highest {α : Type} : List (α → Prop) → α → Prop
  /-- The highest layer gives the value. -/
  | here {layer : α → Prop} {layers : List (α → Prop)} {a : α} (h : layer a) :
    Highest (layer :: layers) a
  /-- The highest layer gives none. -/
  | lower {layer : α → Prop} {layers : List (α → Prop)} {a : α} (hnone : ∀ b, ¬layer b)
    (h : Highest layers a) : Highest (layer :: layers) a

variable {α : Type}

/-- A layer that is put on top overrules what is below it with what it gives, if anything. -/
theorem Highest.cons_iff {layer : α → Prop} {layers : List (α → Prop)} {o : Option α} {d a : α}
    (hlayer : ∀ b, layer b ↔ o = some b) (h : ∀ b, Highest layers b ↔ b = d) :
    Highest (layer :: layers) a ↔ a = o.getD d := by
  constructor
  · rintro (hhere | ⟨hnone, hlower⟩)
    · rw [(hlayer a).mp hhere, Option.getD_some]
    · have ho : o = none := by
        cases o with
        | none => rfl
        | some b => exact absurd ((hlayer b).mpr rfl) (hnone b)
      rw [ho, Option.getD_none]
      exact (h a).mp hlower
  · rintro rfl
    cases o with
    | none =>
      refine .lower (fun b hb => ?_) ((h d).mpr rfl)
      cases (hlayer b).mp hb
    | some b => exact .here ((hlayer b).mpr rfl)

/-- The lowest layer is the usual value. -/
theorem Highest.usual_iff {d a : α} : Highest [fun b => b = d] a ↔ a = d := by
  constructor
  · rintro (hhere | ⟨-, hlower⟩)
    · exact hhere
    · cases hlower
  · rintro rfl
    exact .here rfl

/-! ### Variables -/

/-- **What a variable gives**: what can be read from its value, if it has one. -/
def Variable (env : Environment) (name : String) (reads : String → α → Prop) (a : α) : Prop :=
  ∃ value, env name = some value ∧ reads value a

/-- A server is what is left of a value, if anything is. -/
def ServerText (value server : String) : Prop := Text.trim value = server ∧ server ≠ ""

/-- A credential is what is left of a value, and there is none if nothing is. -/
def TokenText (value : String) : Option String → Prop
  | some token => Text.trim value = token ∧ token ≠ ""
  | none => Text.Blanks value.toList

/-- A positive whole number of 64 bits, with a plus sign or without, and with blanks around it. -/
def PositiveText (value : String) (n : Nat) : Prop :=
  (∃ before core after, Text.Blanks before ∧ Text.NumeralOf n core ∧ Text.Blanks after ∧
    value.toList = before ++ core ++ after) ∧ 0 < n ∧ n < 2 ^ 64

/-- What is left of a value, if anything is. -/
def filled? (value : String) : Option String :=
  if (Text.trim value).isEmpty then none else some (Text.trim value)

theorem filled?_eq_some_iff {value server : String} :
    filled? value = some server ↔ ServerText value server := by
  unfold filled? ServerText
  rw [Option.ite_none_left_eq_some, Option.some.injEq, String.isEmpty_iff]
  constructor
  · rintro ⟨hne, rfl⟩
    exact ⟨rfl, hne⟩
  · rintro ⟨rfl, hne⟩
    exact ⟨hne, rfl⟩

theorem filled?_eq_none_iff {value : String} :
    filled? value = none ↔ Text.Blanks value.toList := by
  rw [← Text.trim_eq_empty_iff, filled?, ← String.isEmpty_iff]
  split <;> simp_all

theorem filled?_eq_iff {value : String} {token : Option String} :
    filled? value = token ↔ TokenText value token := by
  cases token with
  | none => exact filled?_eq_none_iff
  | some token => exact filled?_eq_some_iff

theorem positive?_eq_some_iff {value : String} {n : Nat} :
    positive? value = some n ↔ PositiveText value n := by
  have hlimit : n ≤ Json.wordLimit ↔ n < 2 ^ 64 := Nat.lt_succ_iff.symm
  rw [positive?, Option.filter_eq_some_iff, Text.wholeNumber?_trim_eq_some_iff, PositiveText,
    hlimit, decide_eq_true_eq, and_assoc]
  exact and_congr_right fun _ => and_comm

section Variable

variable {env : Environment} {name : String}

/-- A variable gives what its reader finds. -/
theorem variable_iff {reads : String → α → Prop} {read : String → Option α}
    (h : ∀ value a, read value = some a ↔ reads value a) (a : α) :
    Variable env name reads a ↔ (env name).bind read = some a := by
  rw [Option.bind_eq_some_iff]
  constructor
  · rintro ⟨value, hvalue, ha⟩
    exact ⟨value, hvalue, (h value a).mpr ha⟩
  · rintro ⟨value, hvalue, ha⟩
    exact ⟨value, hvalue, (h value a).mp ha⟩

theorem variable_server_iff (s : String) :
    Variable env name ServerText s ↔ (env name).bind filled? = some s :=
  variable_iff (fun _ _ => filled?_eq_some_iff) s

theorem variable_token_iff (t : Option String) :
    Variable env name TokenText t ↔ (env name).map filled? = some t := by
  have hread : ∀ value t, some (filled? value) = some t ↔ TokenText value t := by
    intro value t
    rw [Option.some.injEq, filled?_eq_iff]
  rw [variable_iff hread t, ← Function.comp_def, ← Option.map_eq_bind]

theorem variable_positive_iff (n : Nat) :
    Variable env name PositiveText n ↔ (env name).bind positive? = some n :=
  variable_iff (fun _ _ => positive?_eq_some_iff) n

end Variable

/-- **What the environment makes of preferences**: every variable has a say about its own field, if
something can be read from it, and about no other. -/
theorem underEnvironment_eq (p : Preferences) (env : Environment) :
    (p.underEnvironment env).1 =
      { p with
        server := ((env "DEPOVIEW_SERVER").bind filled?).getD p.server
        token := ((env "DEPOVIEW_TOKEN").map filled?).getD p.token
        bins := ((env "DEPOVIEW_BINS").bind positive?).getD p.bins
        retryMs := ((env "DEPOVIEW_RETRY_MS").bind positive?).getD p.retryMs } := by
  have hserver (p : Preferences) (value : String) :
      p.withServer value = { p with server := (filled? value).getD p.server } := by
    unfold withServer filled?
    split <;> rfl
  have htoken (p : Preferences) (value : String) :
      p.withToken value = { p with token := filled? value } := rfl
  have hnumber (p : Preferences) (set : Nat → Preferences) (name value : String) :
      (p.withNumber set name value).1 = ((positive? value).map set).getD p := by
    unfold withNumber
    split <;> simp [*]
  simp only [underEnvironment, overruledBy]
  cases env "DEPOVIEW_SERVER" <;> cases env "DEPOVIEW_TOKEN" <;> cases env "DEPOVIEW_BINS" <;>
    cases env "DEPOVIEW_RETRY_MS" <;> simp [hserver, htoken, hnumber]

/-- **A variable that gives no value**: a server that is blank, or a number that is none or is not
positive. A credential is always one. -/
def Invalid (env : Environment) (name : String) : Prop :=
  ∃ value, env name = some value ∧
    (name = "DEPOVIEW_SERVER" ∧ (∀ server, ¬ServerText value server) ∨
      (name = "DEPOVIEW_BINS" ∨ name = "DEPOVIEW_RETRY_MS") ∧ ∀ n, ¬PositiveText value n)

/-- An environment without some of the variables that give no value. What variables of other names
say is left open. -/
def Pruned (env pruned : Environment) : Prop :=
  ∀ name ∈ variableNames, pruned name = env name ∨ Invalid env name ∧ pruned name = none

/-- Nothing is read from a variable that gives no value, so nothing is lost without it. -/
theorem bind_pruned {env pruned : Environment} {name : String} {read : String → Option α}
    (h : pruned name = env name ∨ Invalid env name ∧ pruned name = none)
    (hinvalid : Invalid env name → ∃ value, env name = some value ∧ read value = none) :
    (pruned name).bind read = (env name).bind read := by
  rcases h with heq | ⟨hbad, hnone⟩
  · rw [heq]
  · obtain ⟨value, hvalue, hread⟩ := hinvalid hbad
    rw [hnone, hvalue, Option.bind_none, Option.bind_some, hread]

/-- **A variable that gives no value may as well not be there.** -/
theorem underEnvironment_pruned {env pruned : Environment} (h : Pruned env pruned)
    (p : Preferences) : (p.underEnvironment pruned).1 = (p.underEnvironment env).1 := by
  have hserver :
      (pruned "DEPOVIEW_SERVER").bind filled? = (env "DEPOVIEW_SERVER").bind filled? := by
    refine bind_pruned (h _ (by simp [variableNames])) ?_
    rintro ⟨value, hvalue, hbad⟩
    have hnone : ∀ server, ¬ServerText value server := by simpa using hbad
    exact ⟨value, hvalue, Option.eq_none_iff_forall_ne_some.mpr fun server hread =>
      hnone server (filled?_eq_some_iff.mp hread)⟩
  have hnumber {name : String} (hname : name = "DEPOVIEW_BINS" ∨ name = "DEPOVIEW_RETRY_MS") :
      (pruned name).bind positive? = (env name).bind positive? := by
    refine bind_pruned (h _ (by rcases hname with rfl | rfl <;> simp [variableNames])) ?_
    rintro ⟨value, hvalue, hbad⟩
    have hnone : ∀ n, ¬PositiveText value n := by
      rcases hname with rfl | rfl <;> simpa using hbad
    exact ⟨value, hvalue, Option.eq_none_iff_forall_ne_some.mpr fun n hread =>
      hnone n (positive?_eq_some_iff.mp hread)⟩
  have htoken : pruned "DEPOVIEW_TOKEN" = env "DEPOVIEW_TOKEN" := by
    rcases h "DEPOVIEW_TOKEN" (by simp [variableNames]) with heq | ⟨⟨value, -, hbad⟩, -⟩
    · exact heq
    · simp at hbad
  rw [underEnvironment_eq, underEnvironment_eq, hserver, htoken, hnumber (.inl rfl),
    hnumber (.inr rfl)]

/-! ### The layers of each field -/

section Layers

variable (env : Environment) (g : Given)

/-- Where the address of the server can come from. -/
def serverLayers (flag : Option String) : List (String → Prop) :=
  [fun s => flag = some s, Variable env "DEPOVIEW_SERVER" ServerText, fun s => g.server = some s,
    fun s => s = "http://127.0.0.1:8080/"]

/-- Where the credential can come from. The file can say that there is none. -/
def tokenLayers (flag : Option String) : List (Option String → Prop) :=
  [fun t => flag.map some = some t, Variable env "DEPOVIEW_TOKEN" TokenText,
    fun t => g.token = some t, fun t => t = none]

/-- Where the number of bins can come from. -/
def binsLayers (flag : Option Nat) : List (Nat → Prop) :=
  [fun n => flag = some n, Variable env "DEPOVIEW_BINS" PositiveText,
    fun n => g.bins.map UInt64.toNat = some n, fun n => n = 10]

/-- Where the time to retry after can come from. -/
def retryLayers : List (Nat → Prop) :=
  [Variable env "DEPOVIEW_RETRY_MS" PositiveText, fun n => g.retryMs.map UInt64.toNat = some n,
    fun n => n = 10000]

/-- What can say whether an archive is kept. The flag can only say that there is none. -/
def archiveLayers (keepArchive : Bool) : List (Bool → Prop) :=
  [fun b => keepArchive = false ∧ b = false, fun b => g.saveArchive = some b, fun b => b = true]

/-- Where a number can come from that only the file can give. -/
def fileLayers (given : Option UInt64) (usual : Nat) : List (Nat → Prop) :=
  [fun n => given.map UInt64.toNat = some n, fun n => n = usual]

/-- **Every field has the value of the highest layer that gives one**: of a flag of the command
line, a variable of the environment, the settings file and the usual value, as far as the field has
them. -/
structure Layered (server token : Option String) (bins : Option Nat) (keepArchive : Bool)
    (p : Preferences) : Prop where
  /-- The address of the server's page. -/
  server : Highest (serverLayers env g server) p.server
  /-- The credential. -/
  token : Highest (tokenLayers env g token) p.token
  /-- The cells of a height map along each axis. -/
  bins : Highest (binsLayers env g bins) p.bins
  /-- The time after which a segment is asked for again. -/
  retryMs : Highest (retryLayers env g) p.retryMs
  /-- Whether to keep an archive. -/
  saveArchive : Highest (archiveLayers g keepArchive) p.saveArchive
  /-- How often to look whether the connection is down. -/
  reconnectMs : Highest (fileLayers g.reconnectMs 5000) p.reconnectMs
  /-- The delay before a segment is asked for. -/
  debounceMs : Highest (fileLayers g.debounceMs 250) p.debounceMs

variable {env g}

/-- What the file gives, or the usual value, is the lower end of the layers. -/
theorem highest_file_iff {o : Option α} {d a : α} :
    Highest [fun b => o = some b, fun b => b = d] a ↔ a = o.getD d :=
  Highest.cons_iff (fun _ => Iff.rfl) fun _ => Highest.usual_iff

theorem highest_serverLayers_iff {flag : Option String} {s : String} :
    Highest (serverLayers env g flag) s ↔
      s = flag.getD (((env "DEPOVIEW_SERVER").bind filled?).getD g.preferences.server) :=
  Highest.cons_iff (fun _ => Iff.rfl) fun _ =>
    Highest.cons_iff variable_server_iff fun _ => highest_file_iff

theorem highest_tokenLayers_iff {flag t : Option String} : Highest (tokenLayers env g flag) t ↔
    t = flag.or (((env "DEPOVIEW_TOKEN").map filled?).getD g.preferences.token) := by
  have hlayers : Highest (tokenLayers env g flag) t ↔
      t = (flag.map some).getD (((env "DEPOVIEW_TOKEN").map filled?).getD g.preferences.token) :=
    Highest.cons_iff (fun _ => Iff.rfl) fun _ =>
      Highest.cons_iff variable_token_iff fun _ => highest_file_iff
  rw [hlayers]
  cases flag <;> rfl

theorem highest_binsLayers_iff {flag : Option Nat} {n : Nat} :
    Highest (binsLayers env g flag) n ↔
      n = flag.getD (((env "DEPOVIEW_BINS").bind positive?).getD g.preferences.bins) :=
  Highest.cons_iff (fun _ => Iff.rfl) fun _ =>
    Highest.cons_iff variable_positive_iff fun _ => highest_file_iff

theorem highest_retryLayers_iff {n : Nat} : Highest (retryLayers env g) n ↔
    n = ((env "DEPOVIEW_RETRY_MS").bind positive?).getD g.preferences.retryMs :=
  Highest.cons_iff variable_positive_iff fun _ => highest_file_iff

theorem highest_archiveLayers_iff {keepArchive b : Bool} :
    Highest (archiveLayers g keepArchive) b ↔ b = (g.preferences.saveArchive && keepArchive) := by
  have hflag : ∀ b, keepArchive = false ∧ b = false ↔
      (if keepArchive then none else some false) = some b := by
    cases keepArchive <;> simp [eq_comm]
  rw [archiveLayers, Highest.cons_iff hflag fun _ => highest_file_iff]
  cases keepArchive with
  | false => rw [Bool.and_false]; rfl
  | true => rw [Bool.and_true]; rfl

variable {server token : Option String} {bins : Option Nat} {keepArchive : Bool}

/-- **The layers determine the preferences**: they are what the flags make of what the environment
makes of the file. -/
theorem layered_iff (mixture : List (String × Nat)) (settings : List (String × Float))
    (xyz : Option String) {p : Preferences} : Layered env g server token bins keepArchive p ↔
      p = Program.overruled (g.preferences.underEnvironment env).1
        ⟨server, token, .run mixture settings bins xyz keepArchive⟩ := by
  rw [underEnvironment_eq]
  constructor
  · rintro ⟨hserver, htoken, hbins, hretry, harchive, hreconnect, hdebounce⟩
    obtain ⟨server', token', reconnect', debounce', retry', bins', archive'⟩ := p
    obtain rfl := highest_serverLayers_iff.mp hserver
    obtain rfl := highest_tokenLayers_iff.mp htoken
    obtain rfl := highest_binsLayers_iff.mp hbins
    obtain rfl := highest_retryLayers_iff.mp hretry
    obtain rfl := highest_archiveLayers_iff.mp harchive
    obtain rfl := highest_file_iff.mp hreconnect
    obtain rfl := highest_file_iff.mp hdebounce
    rfl
  · rintro rfl
    exact ⟨highest_serverLayers_iff.mpr rfl, highest_tokenLayers_iff.mpr rfl,
      highest_binsLayers_iff.mpr rfl, highest_retryLayers_iff.mpr rfl,
      highest_archiveLayers_iff.mpr rfl, highest_file_iff.mpr rfl, highest_file_iff.mpr rfl⟩

end Layers

/-! ### The program -/

section Program

variable {w : World} {g : Given} {server token : Option String} {bins : Option Nat}
  {keepArchive : Bool} {mixture : List (String × Nat)} {settings : List (String × Float)}
  {xyz : Option String}

/-- The preferences under which a job is run, from what its settings file gives. -/
theorem preferences_run (hfile : FileGives (w.files.readText w.dataDirectory.settingsFile) g)
    (env : Environment) (i : Invocation) :
    Program.preferences { w with environment := env } i =
      .ok (Program.overruled (g.preferences.underEnvironment env).1 i) := by
  rw [Program.preferences, load, ofFile_of_gives hfile]
  rfl

/-- **Settings are laid over each other field by field.** Whatever the settings file gives, whatever
the variables of the environment are and whatever flags a job is run with, there are preferences,
and they are those in which each field has the value of the highest layer that gives one. A variable
that gives no value changes nothing, and what is derived from the preferences to wait for is never
nothing. -/
theorem preferences_layered (server token : Option String) (mixture : List (String × Nat))
    (settings : List (String × Float)) (bins : Option Nat) (xyz : Option String)
    (keepArchive : Bool)
    (hfile : FileGives (w.files.readText w.dataDirectory.settingsFile) g) :
    ∃ p, Program.preferences w ⟨server, token, .run mixture settings bins xyz keepArchive⟩ = .ok p ∧
      Layered w.environment g server token bins keepArchive p ∧
      (∀ p', Layered w.environment g server token bins keepArchive p' → p' = p) ∧
      (∀ env, Pruned w.environment env →
        Program.preferences { w with environment := env }
          ⟨server, token, .run mixture settings bins xyz keepArchive⟩ = .ok p) ∧
      0 < p.timing.retry ∧ 0 < p.reconnectInterval := by
  have hread := preferences_run hfile
  refine ⟨_, hread w.environment _, (layered_iff mixture settings xyz).mpr rfl,
    fun p' hp' => (layered_iff mixture settings xyz).mp hp', fun env hpruned => ?_,
    retry_timing_pos _, reconnectInterval_pos _⟩
  rw [hread env, underEnvironment_pruned hpruned]

/-- A file that gives three fields among others, two variables that give nothing and two that do,
and two flags: the bins of the flag, the time of the variable, the credential that the variable
takes away, no archive, and the usual server. -/
theorem preferences_layered_sample :
    let text := "\x7b\"debounce_ms\": 5, \"token\": \"t\", \"colour\": 7, \"bins\": 0\x7d"
    let env : Environment := fun name =>
      if name = "DEPOVIEW_SERVER" then some " " else if name = "DEPOVIEW_TOKEN" then some ""
      else if name = "DEPOVIEW_BINS" then some "0"
      else if name = "DEPOVIEW_RETRY_MS" then some "\t+020 " else none
    let w : World :=
      { files := { entries := [(["d"], .directory),
          (["d", "settings.json"], .file (Utf8.encode text))] }
        environment := env
        dataDirectory := ⟨"/d"⟩ }
    let i : Invocation := ⟨none, none, .run [("TPD", 1)] [] (some 25) none false⟩
    let p : Preferences := { debounceMs := 5, retryMs := 20, bins := 25, saveArchive := false }
    Program.preferences w i = .ok p ∧
      Program.preferences
        { w with environment := fun name => if name = "DEPOVIEW_BINS" then none else env name } i =
          .ok p ∧
      0 < p.timing.retry ∧ 0 < p.reconnectInterval := by
  intro text env w i p
  have hpath : w.dataDirectory.settingsFile = "/d/settings.json" := by
    have hrelative : Path.isAbsolute "settings.json" = false := by
      rw [Path.isAbsolute, String.startsWith_string_eq_false_iff]
      decide
    have hend : "/d".endsWith "/" = false := by
      rw [Path.endsWith_slash_eq_false_iff]
      decide
    rw [DataDirectory.settingsFile, Path.join, hrelative, hend]
    decide
  have hplace : w.files.locate "/d/settings.json" = .ok ["d", "settings.json"] := by
    have habsolute : Path.isAbsolute "/d/settings.json" = true := by
      rw [Path.isAbsolute, String.startsWith_string_iff]
      decide
    have hnames : Path.names "/d/settings.json" = ["d", "settings.json"] := by cbv
    rw [Files.locate, if_neg (by decide), if_neg (by decide), habsolute, hnames]
    rfl
  have hopen : w.files.openToRead "/d/settings.json" = .ok (.ofBytes (Utf8.encode text)) := by
    have hend : Files.endsAsDirectory "/d/settings.json" = false := by
      rw [Files.endsAsDirectory, Path.endsWith_slash_eq_false_iff]
      decide
    rw [Files.openToRead, hplace]
    change (if Files.endsAsDirectory "/d/settings.json" then _ else _) = _
    rw [hend]
    rfl
  have htext : w.files.readText w.dataDirectory.settingsFile = .ok text := by
    rw [hpath, Files.readText, hopen, Source.ofBytes]
    dsimp only
    rw [Utf8.decode?_encode]
  have hobject : Json.IsTextOf (.record [("debounce_ms", .natural 5), ("token", .text "t"),
      ("colour", .natural 7), ("bins", .natural 0)]) text := by
    dsimp only [text]
    exact Json.read?_eq_some_iff.mp (by cbv)
  have hfile : FileGives (w.files.readText w.dataDirectory.settingsFile)
      { token := some (some "t"), debounceMs := some 5, bins := some 0 } := by
    rw [htext]
    refine .object hobject
      ((List.Perm.swap _ _ _).trans (((List.Perm.swap _ _ []).cons _).cons _)) ?_
    intro m hm
    rw [List.mem_singleton.mp hm]
    decide
  have hzero : ∀ n, ¬PositiveText "0" n := by
    intro n hn
    have hnone : positive? "0" = none := rfl
    rw [positive?_eq_some_iff.mpr hn] at hnone
    cases hnone
  obtain ⟨p', hp', -, hunique, hpruned, htimes⟩ :=
    preferences_layered none none [("TPD", 1)] [] (some 25) none false hfile
  obtain rfl : p = p' := hunique p ((layered_iff [] [] none).mpr (by rfl))
  refine ⟨hp', hpruned _ ?_, htimes⟩
  intro name hname
  by_cases hbins : name = "DEPOVIEW_BINS"
  · refine .inr ⟨⟨"0", ?_, .inr ⟨.inl hbins, hzero⟩⟩, if_pos hbins⟩
    rw [hbins]
    rfl
  · exact .inl (if_neg hbins)

end Program

end Preferences

end Deposition
