/-
The JSON Schema dialect of run submitters (`contract/validation.go`).

A submitted schema is walked before it is compiled: it may use a fixed list of keywords, and refer
only to itself. The walk follows the keywords that hold schemas and takes the values of the others
(`default`, `const`, `enum`, `examples`) as they are. The schema library does not: it compiles
whatever a `$ref` points to, and a local reference may point into one of those values.

The schemas the library meets are therefore the closure of the document under subschemas and
references, and the walk covers the subschemas. The two agree exactly on a document whose references
lead from schema positions to schema positions.
-/
import Wefty.Transactions

set_option autoImplicit false

namespace Wefty.RestrictedSchema

open Transactions

variable {path : String}

/-! ## 1. Documents -/

/-- A decoded JSON document. A number keeps its text (`UseNumber`). The members of an object stand
in the order in which they are visited. -/
inductive Json
  | null
  | bool (value : Bool)
  | number (text : String)
  | string (text : String)
  | array (items : List Json)
  | object (members : List (String × Json))

variable {child value : Json}

def member (key : String) (members : List (String × Json)) : Option Json :=
  (members.find? fun m => m.1 = key).map Prod.snd

def step (token : String) : Json → Option Json
  | .object members => member token members
  | .array items => token.toNat?.bind fun i => items[i]?
  | _ => none

def lookup (document : Json) (pointer : List String) : Option Json :=
  pointer.foldlM (fun value token => step token value) document

/-! ## 2. The walk -/

def restrictedScalarKeywords : List String :=
  ["title", "description", "default", "deprecated", "readOnly", "writeOnly", "examples",
    "type", "enum", "const", "format", "multipleOf", "maximum", "exclusiveMaximum",
    "minimum", "exclusiveMinimum", "maxLength", "minLength", "pattern",
    "maxItems", "minItems", "uniqueItems", "maxContains", "minContains",
    "maxProperties", "minProperties", "required", "dependentRequired"]

def restrictedSchemaKeywords : List String :=
  ["additionalProperties", "unevaluatedProperties", "propertyNames", "items", "unevaluatedItems",
    "contains", "not", "if", "then", "else"]

def restrictedSchemaArrayKeywords : List String := ["allOf", "anyOf", "oneOf", "prefixItems"]

def restrictedSchemaMapKeywords : List String :=
  ["$defs", "properties", "patternProperties", "dependentSchemas"]

/-- The one dialect a `$schema` may name. -/
def draft202012 : String := "https://json-schema.org/draft/2020-12/schema"

/-- `strings.HasPrefix(ref, "#")` -/
def isFragment (ref : String) : Bool := ['#'].isPrefixOf ref.toList

def isLocal : Json → Bool
  | .string ref => isFragment ref
  | _ => false

/-- `child != "https://json-schema.org/draft/2020-12/schema"`, the other way. -/
def isDraft : Json → Bool
  | .string text => text = draft202012
  | _ => false

mutual

def validateRestrictedSchemaNode (value : Json) (path : String) (allowNameMap : Bool) :
    Except String Unit :=
  match value with
  | .bool _ => .ok ()
  | .object members => validateMembers members path allowNameMap
  | .null | .number _ | .string _ | .array _ =>
    .error (path ++ " must be a schema object or boolean")
termination_by structural value

def validateMembers (members : List (String × Json)) (path : String) (allowNameMap : Bool) :
    Except String Unit :=
  match members with
  | [] => .ok ()
  | (key, child) :: rest => do
    let childPath := path ++ "." ++ key
    (if allowNameMap then validateRestrictedSchemaNode child childPath false
    else if key = "$schema" then
      if isDraft child then .ok ()
      else .error (childPath ++ " must name JSON Schema draft 2020-12")
    else if key = "$ref" then
      if isLocal child then .ok ()
      else .error (childPath ++ " must be a local fragment reference")
    else if key ∈ restrictedScalarKeywords then .ok ()
    else if key ∈ restrictedSchemaKeywords then validateRestrictedSchemaNode child childPath false
    else if key ∈ restrictedSchemaArrayKeywords then
      match child with
      | .array items => validateItems items childPath 0
      | _ => .error (childPath ++ " must be an array of schemas")
    else if key ∈ restrictedSchemaMapKeywords then validateRestrictedSchemaNode child childPath true
    else .error (path ++ " uses unsupported keyword \"" ++ key ++ "\""))
    validateMembers rest path allowNameMap
termination_by structural members

def validateItems (items : List Json) (path : String) (i : Nat) : Except String Unit :=
  match items with
  | [] => .ok ()
  | item :: rest => do
    validateRestrictedSchemaNode item (path ++ "[" ++ toString i ++ "]") false
    validateItems rest path (i + 1)
termination_by structural items

end

/-- `CompileRestrictedSchema` of a decoded document: the walk, and then the library, which adds the
resource and compiles it. -/
def compileRestrictedSchema {σ : Type} (library : Json → Except String σ) (document : Json) :
    Except String σ := do
  validateRestrictedSchemaNode document "$" false
  library document

/-! ## 3. What the walk accepts -/

/-- A schema that was walked, wherever it stands. -/
def Walked (value : Json) : Prop := ∃ path, validateRestrictedSchemaNode value path false = .ok ()

inductive Subschema : Json → Json → Prop
  | value {members : List (String × Json)} {key : String} {child : Json}
      (hmem : (key, child) ∈ members) (hkey : key ∈ restrictedSchemaKeywords) :
      Subschema (.object members) child
  | item {members : List (String × Json)} {key : String} {items : List Json} {child : Json}
      (hmem : (key, .array items) ∈ members) (hkey : key ∈ restrictedSchemaArrayKeywords)
      (hitem : child ∈ items) : Subschema (.object members) child
  | named {members names : List (String × Json)} {key name : String} {child : Json}
      (hmem : (key, .object names) ∈ members) (hkey : key ∈ restrictedSchemaMapKeywords)
      (hname : (name, child) ∈ names) : Subschema (.object members) child

def allowedKeywords : List String :=
  ["$schema", "$ref"] ++ restrictedScalarKeywords ++ restrictedSchemaKeywords ++
    restrictedSchemaArrayKeywords ++ restrictedSchemaMapKeywords

/-- What is asked of one schema: a boolean, or an object with keywords of the dialect whose
references stay in the document. -/
def Restricted : Json → Prop
  | .bool _ => True
  | .object members => ∀ m ∈ members, m.1 ∈ allowedKeywords ∧
      (m.1 = "$schema" → isDraft m.2) ∧ (m.1 = "$ref" → isLocal m.2)
  | .null | .number _ | .string _ | .array _ => False

def validateKeyword (key : String) (child : Json) (path : String) : Except String Unit :=
  if key = "$schema" then
    if isDraft child then .ok ()
    else .error (path ++ "." ++ key ++ " must name JSON Schema draft 2020-12")
  else if key = "$ref" then
    if isLocal child then .ok ()
    else .error (path ++ "." ++ key ++ " must be a local fragment reference")
  else if key ∈ restrictedScalarKeywords then .ok ()
  else if key ∈ restrictedSchemaKeywords then
    validateRestrictedSchemaNode child (path ++ "." ++ key) false
  else if key ∈ restrictedSchemaArrayKeywords then
    match child with
    | .array items => validateItems items (path ++ "." ++ key) 0
    | _ => .error (path ++ "." ++ key ++ " must be an array of schemas")
  else if key ∈ restrictedSchemaMapKeywords then
    validateRestrictedSchemaNode child (path ++ "." ++ key) true
  else .error (path ++ " uses unsupported keyword \"" ++ key ++ "\"")

theorem validateMembers_cons (key : String) (child : Json) (rest : List (String × Json))
    (path : String) : validateMembers ((key, child) :: rest) path false =
      (do validateKeyword key child path; validateMembers rest path false) := by
  cases child <;> rfl

theorem keyword_of_members {members : List (String × Json)}
    (h : validateMembers members path false = .ok ()) {key : String} (hmem : (key, child) ∈ members)
    : validateKeyword key child path = .ok () := by
  induction members with
  | nil => cases hmem
  | cons m rest ih =>
    rw [validateMembers_cons] at h
    obtain ⟨_, hfst, hrest⟩ := ok_of_bind h
    rcases List.mem_cons.mp hmem with rfl | hlater
    · exact hfst
    · exact ih hrest hlater

/-- Under the keywords that hold a map, the names are free and each value is a schema. -/
theorem walked_of_names {names : List (String × Json)}
    (h : validateMembers names path true = .ok ()) {name : String} (hmem : (name, child) ∈ names)
    : Walked child := by
  induction names with
  | nil => cases hmem
  | cons m rest ih =>
    obtain ⟨_, hfst, hrest⟩ := ok_of_bind h
    rcases List.mem_cons.mp hmem with rfl | hlater
    · exact ⟨_, hfst⟩
    · exact ih hrest hlater

theorem walked_of_items {items : List Json} {i : Nat} (h : validateItems items path i = .ok ())
    (hmem : child ∈ items) : Walked child := by
  induction items generalizing i with
  | nil => cases hmem
  | cons item rest ih =>
    obtain ⟨_, hfst, hrest⟩ := ok_of_bind h
    rcases List.mem_cons.mp hmem with rfl | hlater
    · exact ⟨_, hfst⟩
    · exact ih hrest hlater

/-- The lists of keywords do not overlap, so each is read in its own arm of the switch. -/
theorem schema_keywords_apart : ∀ key ∈ restrictedSchemaKeywords,
    key ≠ "$schema" ∧ key ≠ "$ref" ∧ key ∉ restrictedScalarKeywords := by decide

theorem array_keywords_apart : ∀ key ∈ restrictedSchemaArrayKeywords,
    key ≠ "$schema" ∧ key ≠ "$ref" ∧ key ∉ restrictedScalarKeywords ∧
      key ∉ restrictedSchemaKeywords := by decide

theorem map_keywords_apart : ∀ key ∈ restrictedSchemaMapKeywords,
    key ≠ "$schema" ∧ key ≠ "$ref" ∧ key ∉ restrictedScalarKeywords ∧
      key ∉ restrictedSchemaKeywords ∧ key ∉ restrictedSchemaArrayKeywords := by decide

/-- **What was walked is restricted.** -/
theorem restricted_of_walked (h : Walked value) : Restricted value := by
  obtain ⟨path, hpath⟩ := h
  cases value with
  | bool b => trivial
  | object members =>
    rintro ⟨key, child⟩ hmem
    have hkw := keyword_of_members hpath hmem
    unfold validateKeyword at hkw
    refine ⟨?_, ?_, ?_⟩
    · -- Each arm that is taken is the arm of a keyword of the dialect.
      simp only [allowedKeywords, List.mem_append, List.mem_cons, List.not_mem_nil, or_false]
      by_contra hoth
      simp only [not_or] at hoth
      obtain ⟨⟨⟨⟨⟨hschema, href⟩, hscalar⟩, hvalue⟩, harray⟩, hmap⟩ := hoth
      rw [if_neg hschema, if_neg href, if_neg hscalar, if_neg hvalue, if_neg harray,
        if_neg hmap] at hkw
      cases hkw
    · rintro rfl
      by_contra hdraft
      rw [if_pos rfl, if_neg hdraft] at hkw
      cases hkw
    · rintro rfl
      by_contra hlocal
      rw [if_neg (by decide), if_pos rfl, if_neg hlocal] at hkw
      cases hkw
  | null => cases hpath
  | number text => cases hpath
  | string text => cases hpath
  | array items => cases hpath

/-- **The walk goes on** through every keyword that holds schemas. -/
theorem walked_of_subschema (h : Walked value) (hchild : Subschema value child) : Walked child := by
  obtain ⟨path, hpath⟩ := h
  cases hchild with
  | value hmem hkey =>
    have hkw := keyword_of_members hpath hmem
    obtain ⟨hschema, href, hscalar⟩ := schema_keywords_apart _ hkey
    unfold validateKeyword at hkw
    rw [if_neg hschema, if_neg href, if_neg hscalar, if_pos hkey] at hkw
    exact ⟨_, hkw⟩
  | item hmem hkey hitem =>
    have hkw := keyword_of_members hpath hmem
    obtain ⟨hschema, href, hscalar, hvalue⟩ := array_keywords_apart _ hkey
    unfold validateKeyword at hkw
    rw [if_neg hschema, if_neg href, if_neg hscalar, if_neg hvalue,
      if_pos hkey] at hkw
    exact walked_of_items hkw hitem
  | named hmem hkey hname =>
    have hkw := keyword_of_members hpath hmem
    obtain ⟨hschema, href, hscalar, hvalue, harray⟩ := map_keywords_apart _ hkey
    unfold validateKeyword at hkw
    rw [if_neg hschema, if_neg href, if_neg hscalar, if_neg hvalue,
      if_neg harray, if_pos hkey] at hkw
    exact walked_of_names hkw hname

/-! ## 4. What the library meets -/

section
variable (pointer : String → Option (List String)) (document : Json)

/-- The schemas the library meets in a document: the document, the schemas under the keywords of one
it met, and what a reference of one it met points to. `pointer` reads the JSON pointer out of a
fragment. -/
inductive Met : Json → Prop
  | document : Met document
  | subschema {value child : Json} (hmet : Met value) (hchild : Subschema value child) : Met child
  | reference {members : List (String × Json)} {ref : String} {path : List String} {target : Json}
      (hmet : Met (.object members)) (href : ("$ref", .string ref) ∈ members)
      (hpath : pointer ref = some path) (htarget : lookup document path = some target) :
      Met target

/-- A schema position of a document: the document itself, and what is reached from it through the
keywords that hold schemas. -/
inductive Position : Json → Prop
  | document : Position document
  | subschema {value child : Json} (hpos : Position value) (hchild : Subschema value child) :
      Position child

/-- Each reference at a schema position points to a schema position, if to anything. -/
def RefersToPositions : Prop :=
  ∀ {members : List (String × Json)} {ref : String} {path : List String} {target : Json},
    Position document (.object members) → ("$ref", .string ref) ∈ members →
    pointer ref = some path → lookup document path = some target → Position document target

end

section
variable {pointer : String → Option (List String)} {document : Json}

theorem met_of_position (h : Position document value) : Met pointer document value := by
  induction h with
  | document => exact .document
  | subschema _ hchild ih => exact .subschema ih hchild

/-- **References lead to schema positions** if and only if they add nothing to them. -/
theorem refersToPositions_iff : RefersToPositions pointer document ↔
    ∀ value, Met pointer document value → Position document value := by
  constructor
  · intro hrefers value hmet
    induction hmet with
    | document => exact .document
    | subschema _ hchild ih => exact .subschema ih hchild
    | reference _ href hpath htgt ih => exact hrefers ih href hpath htgt
  · intro hmet members ref path target hpos href hpath htgt
    exact hmet target (.reference (met_of_position hpos) href hpath htgt)

theorem walked_of_position (hwalked : Walked document) (h : Position document value) :
    Walked value := by
  induction h with
  | document => exact hwalked
  | subschema _ hchild ih => exact walked_of_subschema ih hchild

end

/-- The documents a schema names: itself, its dialect, and what it refers to. -/
def documents : Json → List String
  | .object members => members.filterMap fun m =>
    match m.2 with
    | .string name => if m.1 ∈ ["$id", "$schema", "$ref"] then some name else none
    | _ => none
  | _ => []

/-- A restricted schema names no other document: it has no `$id`, its dialect is built in, and its
references are fragments. -/
theorem documents_of_restricted (h : Restricted value) {name : String}
    (hname : name ∈ documents value) : isFragment name ∨ name = draft202012 := by
  cases value with
  | object members =>
    obtain ⟨⟨key, child⟩, hmem, hread⟩ := List.mem_filterMap.mp hname
    obtain ⟨hallow, hdraft, hlocal⟩ := h _ hmem
    cases child with
    | string text =>
      dsimp only at hread hallow hdraft hlocal
      split at hread
      next hkey =>
        cases hread
        simp only [List.mem_cons, List.not_mem_nil, or_false] at hkey
        rcases hkey with rfl | rfl | rfl
        · exact absurd hallow (by decide)
        · exact .inr (by simpa [isDraft] using hdraft rfl)
        · exact .inl (hlocal rfl)
      · cases hread
    | _ => cases hread
  | _ => cases hname

/-- **A restricted schema is closed under its references**, where those at its schema positions lead
to schema positions: whatever the library meets uses the keywords of the dialect, and names no
document but this one and its dialect. References lead there exactly if all that the library meets
stands at a schema position, where it was walked. -/
theorem restricted_schema_is_closed {σ : Type} (library : Json → Except String σ)
    (pointer : String → Option (List String)) (document : Json) (schema : σ)
    (hacc : compileRestrictedSchema library document = .ok schema) :
    (RefersToPositions pointer document → ∀ value, Met pointer document value →
      Restricted value ∧ ∀ name ∈ documents value, isFragment name ∨ name = draft202012) ∧
    (RefersToPositions pointer document ↔
      ∀ value, Met pointer document value → Position document value ∧ Walked value) := by
  obtain ⟨_, hwalk, -⟩ := ok_of_bind hacc
  have hwalked : ∀ {value}, Position document value → Walked value :=
    walked_of_position ⟨"$", hwalk⟩
  refine ⟨fun hrefers value hmet => ?_, ?_⟩
  · have hrestr := restricted_of_walked (hwalked (refersToPositions_iff.mp hrefers value hmet))
    exact ⟨hrestr, fun name hname => documents_of_restricted hrestr hname⟩
  · rw [refersToPositions_iff]
    exact forall₂_congr fun value _ => ⟨fun hpos => ⟨hpos, hwalked hpos⟩, And.left⟩

/-! ## 5. References into values -/

def tokens : List Char → List Char → List String
  | token, [] => [String.ofList token.reverse]
  | token, '/' :: rest => String.ofList token.reverse :: tokens [] rest
  | token, '~' :: '0' :: rest => tokens ('~' :: token) rest
  | token, '~' :: '1' :: rest => tokens ('/' :: token) rest
  | token, c :: rest => tokens (c :: token) rest

/-- The JSON pointer of a fragment without percent escapes. -/
def jsonPointer (ref : String) : Option (List String) :=
  match ref.toList with
  | ['#'] => some []
  | '#' :: '/' :: rest => some (tokens [] rest)
  | _ => none

/-- A schema that refers to its own default, which refers to a file. -/
def defaultToFile : Json :=
  .object [("$ref", .string "#/default"),
    ("default", .object [("$ref", .string "file:///etc/wefty/other.json")])]

/-- A schema that refers to its own default, which uses a keyword outside the dialect. -/
def defaultWithComment : Json :=
  .object [("$ref", .string "#/default"), ("default", .object [("$comment", .string "any")])]

example : jsonPointer "#/$defs/a~1b" = some ["$defs", "a/b"] := by decide

/-- The walk lets both through to the library, and the library meets the defaults. -/
theorem default_is_met_unwalked : (∀ {σ : Type} (library : Json → Except String σ),
      compileRestrictedSchema library defaultToFile = library defaultToFile ∧
      compileRestrictedSchema library defaultWithComment = library defaultWithComment) ∧
    (∃ value, Met jsonPointer defaultToFile value ∧ ¬ Restricted value ∧
      "file:///etc/wefty/other.json" ∈ documents value) ∧
    (∃ value, Met jsonPointer defaultWithComment value ∧ ¬ Restricted value) := by
  refine ⟨fun library => ⟨rfl, rfl⟩, ?_, ?_⟩
  · refine ⟨.object [("$ref", .string "file:///etc/wefty/other.json")],
      .reference .document List.mem_cons_self (show _ = some ["default"] by decide) rfl, ?_,
      List.mem_cons_self⟩
    intro hrestr
    have hlocal := (hrestr _ List.mem_cons_self).2.2 rfl
    revert hlocal
    decide
  · refine ⟨.object [("$comment", .string "any")],
      .reference .document List.mem_cons_self (show _ = some ["default"] by decide) rfl, ?_⟩
    intro hrestr
    have hallow := (hrestr _ List.mem_cons_self).1
    revert hallow
    decide

/-- A list whose nodes refer to their definition. -/
def next : Json := .object [("$ref", .string "#/$defs/node")]

def node : Json := .object [("type", .string "object"), ("properties", .object [("next", next)])]

def linked : Json := .object [("$ref", .string "#/$defs/node"), ("$defs", .object [("node", node)])]

theorem position_linked (h : Position linked value) : value ∈ [linked, node, next] := by
  induction h with
  | document => exact List.mem_cons_self
  | subschema _ hchild ih =>
    simp only [List.mem_cons, List.not_mem_nil, or_false] at ih
    cases hchild with
    | value hmem hkey =>
      -- No keyword here holds one schema.
      have hnone : "$ref" ∉ restrictedSchemaKeywords ∧ "$defs" ∉ restrictedSchemaKeywords ∧
          "type" ∉ restrictedSchemaKeywords ∧ "properties" ∉ restrictedSchemaKeywords := by decide
      rcases ih with h | h | h <;> cases h <;> simp at hmem <;> grind
    | item hmem hkey hitem =>
      rcases ih with h | h | h <;> cases h <;> simp at hmem
    | named hmem hkey hname =>
      rcases ih with h | h | h <;> cases h <;> simp at hmem <;> grind

/-- Whatever in it refers to something refers to the definition. -/
theorem linked_refersToPositions : RefersToPositions jsonPointer linked := by
  intro members ref path target hpos href hpath htgt
  have hnode : ref = "#/$defs/node" := by
    have hvalue := position_linked hpos
    simp only [List.mem_cons, List.not_mem_nil, or_false, linked, node, next,
      Json.object.injEq] at hvalue
    rcases hvalue with rfl | rfl | rfl
    · simpa using href
    · simp at href
    · simpa using href
  rw [hnode, show jsonPointer "#/$defs/node" = some ["$defs", "node"] by decide] at hpath
  cases hpath
  rw [← Option.some.inj htgt]
  exact .subschema .document (.named (List.mem_cons_of_mem _ List.mem_cons_self) (by decide)
    List.mem_cons_self)

theorem restricted_schema_is_closed_linked :
    compileRestrictedSchema (fun document => .ok document) linked = .ok linked ∧
      ∀ value, Met jsonPointer linked value → Restricted value ∧
        ∀ name ∈ documents value, isFragment name ∨ name = draft202012 := by
  have hacc : compileRestrictedSchema (fun document => .ok document) linked = .ok linked := rfl
  exact ⟨hacc, (restricted_schema_is_closed _ jsonPointer linked linked hacc).1
    linked_refersToPositions⟩

end Wefty.RestrictedSchema
