import EnigmaMemory.Spec.Json

/-!
# JSON Schema

The keywords of JSON Schema 2020-12 that the published schemas use. A schema object is the
conjunction of its keywords (`allOf`); `additionalProperties: false` looks at the names of the
`properties` beside it. A keyword says nothing about values of other types than its own.
`format` is an annotation and is left out.
-/

namespace EnigmaMemory

/-! ## Equality of values -/

namespace Json

mutual
/-- The two values are the same term. -/
def identical : Json → Json → Bool
  | null, null => true
  | bool a, bool b => a == b
  | num a, num b => a == b
  | str a, str b => a == b
  | arr xs, arr ys => identicalItems xs ys
  | obj fs, obj gs => identicalFields fs gs
  | _, _ => false

def identicalItems : List Json → List Json → Bool
  | [], [] => true
  | x :: xs, y :: ys => identical x y && identicalItems xs ys
  | _, _ => false

def identicalFields : List (JsString × Json) → List (JsString × Json) → Bool
  | [], [] => true
  | (k, x) :: fs, (l, y) :: gs => k == l && identical x y && identicalFields fs gs
  | _, _ => false
end

/-- The values are equal up to the order of keys. -/
def equalJson (a b : Json) : Bool := identical a.normalize b.normalize

def distinctItems : List Json → Bool
  | [] => true
  | x :: xs => !xs.any (equalJson x) && distinctItems xs

end Json

/-! ## Schemas -/

inductive JsonType where
  | null
  | boolean
  | object
  | array
  | string
  | integer
  deriving DecidableEq, Repr

/-- `integer` is any number without a fractional part. -/
def JsonType.has : JsonType → Json → Bool
  | null, .null => true
  | boolean, .bool _ => true
  | object, .obj _ => true
  | array, .arr _ => true
  | string, .str _ => true
  | integer, .num q => q.den == 1
  | _, _ => false

inductive Schema where
  | type (types : List JsonType)
  | const (value : Json)
  | enum (values : List Json)
  | pattern (test : JsString → Bool)
  | minimum (bound : ℚ)
  | minItems (n : ℕ)
  | maxItems (n : ℕ)
  | uniqueItems
  | items (schema : Schema)
  | required (keys : List JsString)
  | properties (schemas : List (JsString × Schema))
  /-- `additionalProperties: false` beside properties of these names. -/
  | noAdditionalProperties (names : List JsString)
  | ifThen (condition consequence : Schema)
  | allOf (schemas : List Schema)

namespace Schema

mutual
def accepts : Schema → Json → Bool
  | type types, j => types.any (·.has j)
  | const value, j => j.equalJson value
  | enum values, j => values.any (j.equalJson ·)
  | pattern test, j => match j with | .str s => test s | _ => true
  | minimum bound, j => match j with | .num q => decide (bound ≤ q) | _ => true
  | minItems n, j => match j with | .arr xs => decide (n ≤ xs.length) | _ => true
  | maxItems n, j => match j with | .arr xs => decide (xs.length ≤ n) | _ => true
  | uniqueItems, j => match j with | .arr xs => Json.distinctItems xs | _ => true
  | items schema, j => match j with | .arr xs => xs.all (accepts schema) | _ => true
  | required keys, j => match j with | .obj fs => keys.all fun k => ((Json.obj fs).get k).isSome | _ => true
  | properties schemas, j => acceptsFields schemas j
  | noAdditionalProperties names, j => j.keys.all (decide <| · ∈ names)
  | ifThen condition consequence, j => !accepts condition j || accepts consequence j
  | allOf schemas, j => acceptsAll schemas j

def acceptsAll : List Schema → Json → Bool
  | [], _ => true
  | s :: rest, j => accepts s j && acceptsAll rest j

def acceptsFields : List (JsString × Schema) → Json → Bool
  | [], _ => true
  | (key, s) :: rest, j => (match j.get key with | some v => accepts s v | none => true) && acceptsFields rest j
end

example : accepts (allOf [type [.integer], minimum 0]) (.str []) = false := by
  rw [accepts, acceptsAll, accepts]
  rfl

/-- A schema of objects with the given properties and no others. -/
def closedObject (requiredKeys : List JsString) (schemas : List (JsString × Schema)) (rest : List Schema) : Schema :=
  allOf ([type [.object], required requiredKeys] ++ rest ++ [noAdditionalProperties (schemas.map Prod.fst), properties schemas])

/-- `enum` of strings. -/
def strings (values : List JsString) : Schema := allOf [type [.string], enum (values.map .str)]

def count : Schema := allOf [type [.integer], minimum 0]

/-- An array of different items. -/
def setOf (least : ℕ) (schema : Schema) : Schema := allOf [type [.array], minItems least, items schema, uniqueItems]

end Schema

end EnigmaMemory
