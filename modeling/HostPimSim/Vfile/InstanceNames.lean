import Mathlib.Data.String.Basic

/-! The names that objects are made with: what is stripped from them, and which of them are
accepted.  A text is a byte string with one character for each byte. -/
namespace HostPimSim.Vfile.Namespace

/-- The loop of `vfile_strip_trailing_slashes_preserve_root`, on the text read from its end. -/
def dropSlashes : List Char → List Char
  | '/' :: c :: rest => dropSlashes (c :: rest)
  | chars => chars

/-- `vfile_strip_trailing_slashes_preserve_root` -/
def stripTrailingSlashes (text : String) : String :=
  String.ofList (dropSlashes text.toList.reverse).reverse

/-- `vfile_strip_known_prefix` -/
def stripKnownPrefix (value known : String) : String :=
  if known.toList.isPrefixOf value.toList then String.ofList (value.toList.drop known.length)
  else value

/-- `if (!value.empty() && value.front() == '/') value.erase(0, 1)` -/
def eraseLeadingSlash (value : String) : String :=
  if value.toList.head? = some '/' then String.ofList value.toList.tail else value

/-- `vsysfs_normalize_component` and `vmodule_normalize_component_name` -/
def normalizeComponent (value : String) : String := eraseLeadingSlash (stripTrailingSlashes value)

/-- `vdev_normalize_name_glob` -/
def vdevNormalizeNameGlob (value : String) : String :=
  eraseLeadingSlash (stripKnownPrefix (stripTrailingSlashes value) "/dev/")

def vdevNormalizeName (name : String) : String :=
  stripKnownPrefix (stripTrailingSlashes name) "/dev/"

def vsysfsNormalizeClassComponent (value : String) : String :=
  normalizeComponent (stripKnownPrefix value "/sys/class/")

def vsysfsNormalizeDevicesComponent (value : String) : String :=
  normalizeComponent (stripKnownPrefix value "/sys/devices/")

def vmoduleNormalizeInstanceName (name : String) : String :=
  normalizeComponent (stripKnownPrefix name "/sys/module/")

/-- `vfile_contains_glob_wildcards` -/
def containsGlobWildcards (path : String) : Bool :=
  path.toList.contains '*' || path.toList.contains '?'

def validInstanceName (name : String) : Bool :=
  name != "" && !name.toList.contains '/' && !containsGlobWildcards name

def vdevValidInstanceName (name : String) : Bool := validInstanceName name

def vsysfsValidInstanceName (name : String) : Bool := validInstanceName name

def vmoduleValidInstanceName (name : String) : Bool := validInstanceName name

def vsysfsRootComponentValid (value : String) : Bool := value != "" && !containsGlobWildcards value

theorem validInstanceName_iff {name : String} : validInstanceName name = true ↔
    name ≠ "" ∧ '/' ∉ name.toList ∧ '*' ∉ name.toList ∧ '?' ∉ name.toList := by
  unfold validInstanceName containsGlobWildcards
  simp [and_assoc]

end HostPimSim.Vfile.Namespace
