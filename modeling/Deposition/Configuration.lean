import Deposition.Catalog
import Deposition.Setting.Range

/-!
# Job configurations

A configuration is what a job is submitted with: a *mixture*, components with whole-number ratios,
and numeric *settings* of the simulation. Settings that the program knows have a range and are
sanitised; any other setting is passed to the server as it is.

Two texts are made from a configuration. `Deposition.Configuration.submission` is the JSON that
goes to the server. `Deposition.Configuration.jobName` names the files of the job: components in
the order of their names with the ratios reduced, then the settings, so that equal jobs have equal
names.
-/

namespace Deposition

/-- A component of a mixture. -/
structure Ingredient where
  /-- The residue name. -/
  resName : String
  /-- Its share in the mixture. -/
  ratio : Nat
deriving DecidableEq

/-- A setting with its current value. -/
structure Setting where
  /-- The name under which the server knows it. -/
  key : String
  /-- The current value. -/
  value : Float
  /-- What values it can take. -/
  range : Setting.Range

/-- The mixture and the settings of a job. -/
structure Configuration where
  /-- The components, in the order in which they were added. -/
  mixture : List Ingredient
  /-- The settings, in the order of their keys. -/
  settings : List Setting

namespace Configuration

/-- The rate at which material is deposited, the one setting that every job has. -/
def depositionVelocity : Setting :=
  { key := "deposition_velocity"
    value := 0.35
    range :=
      { default := 0.35
        min := some 0.10
        max := some 1.00
        decimalPlaces := some 2
        displayUnits := some "nm/ps"
        displayName := some "Deposition velocity" } }

/-- Nothing to deposit, at the default velocity. -/
def initial : Configuration := ⟨[], [depositionVelocity]⟩

/-- Every component of a catalog, none of it to deposit yet. -/
def ofCatalog (c : Catalog) : Configuration :=
  { initial with mixture := c.molecules.map fun m => ⟨m.resName, 0⟩ }

/-! ### Changing a configuration -/

/-- The mixture with the first component of this name at this ratio, or with a new one at
its end. -/
def withRatio (name : String) (ratio : Nat) : List Ingredient → List Ingredient
  | [] => [⟨name, ratio⟩]
  | i :: rest =>
    if i.resName = name then { i with ratio } :: rest else i :: withRatio name ratio rest

/-- The settings with this one at this value: sanitised if the setting is there, and otherwise put
in its place among the keys with a range that allows everything. -/
def withSetting (key : String) (value : Float) : List Setting → List Setting
  | [] => [⟨key, value, .unbounded value⟩]
  | s :: rest =>
    if s.key = key then { s with value := s.range.sanitize value } :: rest
    else if key < s.key then ⟨key, value, .unbounded value⟩ :: s :: rest
    else s :: withSetting key value rest

/-- Sets the ratio of a component, which is added if it is not there. -/
def setRatio (c : Configuration) (name : String) (ratio : Nat) : Configuration :=
  { c with mixture := withRatio name ratio c.mixture }

/-- Sets the value of a setting, which is added if it is not there. -/
def setSetting (c : Configuration) (key : String) (value : Float) : Configuration :=
  { c with settings := withSetting key value c.settings }

/-- Applies ratios and then settings, each in order. -/
def apply (c : Configuration) (ratios : List (String × Nat)) (values : List (String × Float)) :
    Configuration :=
  let c := ratios.foldl (fun c (name, ratio) => c.setRatio name ratio) c
  values.foldl (fun c (key, value) => c.setSetting key value) c

/-- The setting of this name. -/
def find? (c : Configuration) (key : String) : Option Setting :=
  c.settings.find? fun s => s.key == key

/-- Whether there is anything to deposit. -/
def validate (c : Configuration) : Except ConfigurationError Unit :=
  if c.mixture.all fun i => i.ratio == 0 then .error .allRatiosZero else .ok ()

/-! ### The submission -/

/-- The first whole number that double precision cannot tell from its neighbour. -/
def wholeLimit : Nat := 9007199254740992

/-- A value as the server gets it. A whole number goes out as an integer, so that an integer setting
stays one. -/
def wireValue (x : Float) : Json :=
  match Binary.ofFloat x with
  | .finite negative m q =>
    let whole := Binary.Value.truncate m q
    if (Binary.Value.finite negative m q).isWhole && whole < wholeLimit then
      .integer (if negative then -whole else whole)
    else .double x
  | _ => .null

/-- What is submitted: the mixture, and every setting beside it. -/
def submission (c : Configuration) : Json :=
  .record <|
    ("mixture", .array (c.mixture.map fun i =>
      .record [("res_name", .text i.resName), ("ratio", .natural i.ratio)])) ::
    c.settings.map fun s => (s.key, wireValue s.value)

/-- The text that is submitted. -/
def submissionText (c : Configuration) : String := c.submission.compact

/-! ### The name of a job -/

/-- Whether a character can stand in a file name as it is. -/
def isFileSafe (c : Char) : Bool :=
  let n := c.toNat
  (97 ≤ n && n ≤ 122) || (65 ≤ n && n ≤ 90) || Text.isDigit c || c == '+'

/-- A name with every other character replaced. -/
def fileSafe (name : String) : String :=
  String.ofList (name.toList.map fun c => if isFileSafe c then c else '_')

/-- The greatest common divisor of the ratios; 1 if they are all zero. -/
def commonDivisor (mixture : List Ingredient) : Nat :=
  max (mixture.foldl (fun d i => Nat.gcd d i.ratio) 0) 1

/-- The mixture in the order of its names; components of one name keep their order. -/
def sortedMixture (c : Configuration) : List Ingredient :=
  c.mixture.mergeSort fun a b => !(decide (b.resName < a.resName))

/-- A setting's part of the job name: in fixed places if the setting has them. -/
def settingPart (s : Setting) : String :=
  match s.range.decimalPlaces with
  | some places => fixedText places s.value
  | none => plainText s.value

/-- A stable name for the files of a job. -/
def jobName (c : Configuration) : String :=
  let divisor := commonDivisor c.mixture
  let components := c.sortedMixture.filter fun i => i.ratio != 0
  String.intercalate "_" <|
    (components.map fun i => fileSafe i.resName ++ "-" ++ toString (i.ratio / divisor)) ++
      c.settings.map settingPart

end Configuration

end Deposition
