import SearchGateway.Text.Duration
import SearchGateway.Index.FieldKind

/-!
# Index settings and metadata

Settings are what an index is configured with; metadata is what the compiler works from. Metadata
is made only from settings without fault, and all faults of the settings are reported together.
-/

namespace SearchGateway.Index

structure FieldSetting where
  name : String
  mapping : String
  deriving DecidableEq

/-- The configuration of an index. Zero and empty settings stand for the defaults. -/
structure Settings where
  shards : Int := 0
  idField : String := ""
  defaultSize : Int := 0
  maxSize : Int := 0
  facetSize : Int := 0
  minimumShouldMatch : String := ""
  defaultFields : List String := []
  sourceIncludes : List String := []
  sourceExcludes : List String := []
  fields : List FieldSetting := []
  /-- Nanoseconds. -/
  queryTimeout : Int := 0
  deriving DecidableEq

namespace Settings

def withDefaults (s : Settings) : Settings :=
  { s with
    shards := if s.shards = 0 then 1 else s.shards
    idField := if s.idField = "" then "id" else s.idField
    defaultSize := if s.defaultSize = 0 then 20 else s.defaultSize
    maxSize := if s.maxSize = 0 then 200 else s.maxSize
    facetSize := if s.facetSize = 0 then 20 else s.facetSize
    minimumShouldMatch := if s.minimumShouldMatch = "" then "75%" else s.minimumShouldMatch }

end Settings

/-- What is wrong with the settings of an index. -/
inductive Flaw
  | emptyName
  | shards (index : String) (got : Int)
  | defaultSize (index : String) (got : Int)
  | facetSize (index : String) (got : Int)
  | queryTimeout (index : String) (got : Int)
  | maxSize (index : String) (max default : Int)
  | fieldName (index field : String)
  | duplicateField (index field : String)
  | unsupportedType (index mapping field : String)
  | undeclaredSource (index field : String)
  deriving DecidableEq

namespace Flaw

def message : Flaw → String
  | emptyName => "index name is empty"
  | shards i n => s!"index '{i}': shards must be positive, got {n}"
  | defaultSize i n => s!"index '{i}': default_size must be positive, got {n}"
  | facetSize i n => s!"index '{i}': facet_size must be positive, got {n}"
  | queryTimeout i n =>
    s!"index '{i}': query_timeout must not be negative, got " ++ Duration.text n
  | maxSize i m d => s!"index '{i}': max_size {m} is lower than default_size {d}"
  | fieldName i f =>
    s!"index '{i}': invalid field name, each segment can only contain [a-zA-Z0-9_] and it can " ++
      s!"only start with [a-zA-Z_] for fieldName = '{f}'"
  | duplicateField i f => s!"index '{i}': duplicate field '{f}'"
  | unsupportedType i t f => s!"index '{i}': unsupported type '{t}' for field '{f}'"
  | undeclaredSource i f => s!"index '{i}': source field '{f}' is not declared"

/-- The text that reports a list of flaws. -/
def report (flaws : List String) : String :=
  let head :=
    match flaws.length with
    | 1 => "1 error occurred:"
    | n => s!"{n} errors occurred:"
  head ++ "\n\t" ++ Text.join "\n\t" (flaws.map ("* " ++ ·)) ++ "\n\n"

end Flaw

/-- The description of an index that requests are compiled against. -/
structure Metadata where
  name : String
  idField : String
  shards : Int
  defaultSize : Int
  maxSize : Int
  facetSize : Int
  minimumShouldMatch : String
  defaultFields : List String
  sourceIncludes : List String
  sourceExcludes : List String
  queryTimeout : Int
  /-- The declared fields and their kinds, each name once. -/
  fields : List (String × FieldKind)
  deriving DecidableEq

/-- Flaws of the single settings, defaults applied. -/
def scalarFlaws (name : String) (s : Settings) : List Flaw :=
  (if name = "" then [.emptyName] else []) ++
  (if s.shards < 0 then [.shards name s.shards] else []) ++
  (if s.defaultSize < 0 then [.defaultSize name s.defaultSize] else []) ++
  (if s.facetSize < 0 then [.facetSize name s.facetSize] else []) ++
  (if s.queryTimeout < 0 then [.queryTimeout name s.queryTimeout] else []) ++
  (if s.maxSize < s.defaultSize then [.maxSize name s.maxSize s.defaultSize] else [])

/-- The kind of a name among declared fields. -/
def lookup (fields : List (String × FieldKind)) (path : String) : Option FieldKind :=
  (fields.find? (·.1 = path)).map (·.2)

/-- Declares the fields in turn; what cannot be declared is a flaw. -/
def declare (name : String) :
    List (String × FieldKind) → List FieldSetting → List (String × FieldKind) × List Flaw
  | known, [] => (known, [])
  | known, f :: fs =>
    let skip (flaw : Flaw) :=
      let (fields, flaws) := declare name known fs
      (fields, flaw :: flaws)
    if !isFieldName f.name then skip (.fieldName name f.name)
    else if (lookup known f.name).isSome then skip (.duplicateField name f.name)
    else
      match FieldKind.ofMapping f.mapping with
      | .unknown => skip (.unsupportedType name f.mapping f.name)
      | kind => declare name (known ++ [(f.name, kind)]) fs

/-- Source fields that are neither declared nor the id. -/
def sourceFlaws (name : String) (s : Settings) (fields : List (String × FieldKind)) : List Flaw :=
  ((s.sourceIncludes ++ s.sourceExcludes).filter fun f =>
    (lookup fields f).isNone && f ≠ s.idField).map (.undeclaredSource name)

namespace Metadata

/-- The metadata of an index, or all flaws of its settings. -/
def make (name : String) (settings : Settings) : Except (List Flaw) Metadata :=
  let s := settings.withDefaults
  let (fields, fieldFlaws) := declare name [] s.fields
  match scalarFlaws name s ++ fieldFlaws ++ sourceFlaws name s fields with
  | [] =>
    .ok {
      name, fields
      idField := s.idField
      shards := s.shards
      defaultSize := s.defaultSize
      maxSize := s.maxSize
      facetSize := s.facetSize
      minimumShouldMatch := s.minimumShouldMatch
      defaultFields := s.defaultFields
      sourceIncludes := s.sourceIncludes
      sourceExcludes := s.sourceExcludes
      queryTimeout := s.queryTimeout }
  | flaws => .error flaws

/-- The kind of the field at a path. The `.raw` sub-field of a text is a keyword, and so is the id
field unless it is declared otherwise. -/
def kindOf? (m : Metadata) (path : String) : Option FieldKind :=
  match lookup m.fields path with
  | some kind => some kind
  | none =>
    if (rawBase? path).any fun base => lookup m.fields base == some .text then some .keyword
    else if path = m.idField then some .keyword
    else none

def hasField (m : Metadata) (path : String) : Bool := (m.kindOf? path).isSome

def isOfKind (m : Metadata) (path : String) (kind : FieldKind) : Bool :=
  m.kindOf? path == some kind

/-- The first segment of the path is a nested field. -/
def isNested (m : Metadata) (path : String) : Bool := m.isOfKind (firstSegment path) .nested

end Metadata

end SearchGateway.Index
