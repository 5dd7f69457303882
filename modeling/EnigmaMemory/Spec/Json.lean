import Mathlib.Data.Rat.Defs
import EnigmaMemory.Spec.JsString

/-!
# JSON values and their texts

`Json` is a value as `JSON.parse` builds it: the fields of an object are listed in
insertion order, a missing field reads as `undefined` (`none`), and numbers are
exact rationals (`-0` and `0` are one number). `stringify` is `JSON.stringify`,
`toText` is `String(value)`, and `canonicalize` is the sorted-key encoding of
`packages/core`, which every hash and signature of the system is taken over.
-/

namespace EnigmaMemory

inductive ErrorName where
  | error
  | typeError
  | rangeError
  deriving DecidableEq, Repr

/-- A thrown exception. -/
structure JsError where
  name : ErrorName
  message : JsString
  deriving DecidableEq, Repr

inductive Json where
  | null
  | bool (b : Bool)
  | num (q : ℚ)
  | str (s : JsString)
  | arr (xs : List Json)
  | obj (fs : List (JsString × Json))

namespace Json

/-- `value[key]` on own fields; `none` is `undefined`. -/
def get (j : Json) (key : JsString) : Option Json :=
  match j with
  | obj fs => fs.lookup key
  | _ => none

@[simp] theorem get_obj_nil (key : JsString) : (obj []).get key = none := rfl

@[simp] theorem get_obj_cons (k key : JsString) (v : Json) (fs : List (JsString × Json)) :
    (obj ((k, v) :: fs)).get key = if key = k then some v else (obj fs).get key := by
  simp only [get, List.lookup_cons]
  by_cases h : key = k
  · rw [if_pos h, h, beq_self_eq_true]
  · rw [if_neg h, beq_false_of_ne h]

theorem get_obj_append (xs ys : List (JsString × Json)) (key : JsString) :
    (obj (xs ++ ys)).get key = ((obj xs).get key).or ((obj ys).get key) := by
  induction xs with
  | nil => rfl
  | cons f xs ih =>
    obtain ⟨k, v⟩ := f
    rw [List.cons_append, get_obj_cons, get_obj_cons, ih]
    split <;> rfl

/-- The fields of an object; a value that is no object has none. -/
def fields : Json → List (JsString × Json)
  | obj fs => fs
  | _ => []

/-- A field of an object literal, left out when its value is `undefined`. -/
def field (key : JsString) (value : Option Json) : List (JsString × Json) :=
  match value with
  | some v => [(key, v)]
  | none => []

@[simp] theorem get_field (k key : JsString) (v : Option Json) :
    (obj (field k v)).get key = if key = k then v else none := by
  cases v <;> simp [field]

def setField (key : JsString) (value : Json) : List (JsString × Json) → List (JsString × Json)
  | [] => [(key, value)]
  | f :: rest => if f.1 = key then (key, value) :: rest else f :: setField key value rest

/-- `value[key] = v` on an object. -/
def set (j : Json) (key : JsString) (v : Json) : Json := obj (setField key v j.fields)

@[simp] theorem get_obj_fields (j : Json) (key : JsString) : (obj j.fields).get key = j.get key := by
  cases j <;> rfl

@[simp] theorem get_set (j : Json) (k key : JsString) (v : Json) :
    (j.set k v).get key = if key = k then some v else j.get key := by
  rw [set, ← get_obj_fields j key]
  induction j.fields with
  | nil => simp [setField]
  | cons f fs ih =>
    obtain ⟨k', v'⟩ := f
    rw [setField]
    split
    · rename_i hk
      simp only at hk
      rw [get_obj_cons, get_obj_cons, hk]
      split <;> rfl
    · rename_i hk
      rw [get_obj_cons, get_obj_cons, ih]
      by_cases h : key = k'
      · rw [if_pos h, if_pos h, if_neg (fun he => hk (h.symm.trans he))]
      · rw [if_neg h, if_neg h]

/-- `{ ...j, ...k }`. -/
def spread (j k : Json) : Json := k.fields.foldl (fun out f => out.set f.1 f.2) (obj j.fields)

/-- `const { [key]: _, ...rest } = j`. -/
def without (j : Json) (key : JsString) : Json := obj (j.fields.filter (·.1 ≠ key))

@[simp] theorem get_without (j : Json) (k key : JsString) :
    (j.without k).get key = if key = k then none else j.get key := by
  rw [without, ← get_obj_fields j key]
  induction j.fields with
  | nil => simp
  | cons f fs ih =>
    obtain ⟨k', v'⟩ := f
    by_cases hk : k' = k
    · rw [List.filter_cons_of_neg (by simpa using hk), ih, get_obj_cons, hk]
      split <;> rfl
    · rw [List.filter_cons_of_pos (by simpa using hk), get_obj_cons, get_obj_cons, ih]
      by_cases h : key = k'
      · rw [if_pos h, if_pos h, if_neg (fun he => hk (h.symm.trans he))]
      · rw [if_neg h, if_neg h]

/-- `a ?? b`. -/
def orElse (a b : Option Json) : Option Json :=
  match a with
  | none | some null => b
  | some v => some v

/-- `Object.keys(value)`. -/
def keys : Json → List JsString
  | obj fs => fs.map Prod.fst
  | _ => []

def isPlainRecord : Json → Bool
  | obj _ => true
  | _ => false

/-- The truth value of `if (value)`, for a field that may be missing. -/
def truthy : Option Json → Bool
  | none | some null => false
  | some (bool b) => b
  | some (num q) => q != 0
  | some (str s) => s != []
  | some (arr _) | some (obj _) => true

/-- `value === s` for a string `s`. -/
def isStr (j : Option Json) (s : JsString) : Bool :=
  match j with
  | some (str t) => t == s
  | _ => false

@[simp] theorem isStr_iff {j : Option Json} {s : JsString} : isStr j s = true ↔ j = some (str s) := by
  unfold isStr
  split
  · simp
  · rename_i h
    exact iff_of_false Bool.false_ne_true (fun he => h s he)

/-- `value === n` for a number `n`. -/
def isNum (j : Option Json) (n : ℚ) : Bool :=
  match j with
  | some (num q) => q == n
  | _ => false

/-- The number of a field for which `Number.isInteger(value) && value >= 0`. -/
def natural? (j : Option Json) : Option ℕ :=
  match j with
  | some (num q) => if q.den = 1 ∧ 0 ≤ q.num then some q.num.toNat else none
  | _ => none

end Json

/-! ## Texts -/

/-- The units of a printed number: digits, sign, point and exponent. -/
def isNumberUnit (c : CodeUnit) : Bool := decide (48 ≤ c ∧ c ≤ 57) || c == 43 || c == 45 || c == 46 || c == 101

/-- `Number::toString` on finite numbers. The algorithm belongs to the engine; the
encodings below rely on it printing different numbers differently, in number
characters only. -/
structure NumberFormat where
  numberText : ℚ → JsString
  numberText_inj : Function.Injective numberText
  numberText_ne : ∀ q, numberText q ≠ []
  numberText_units : ∀ q, ∀ c ∈ numberText q, isNumberUnit c = true

/-- `items.join(',')`. -/
def joinComma : List JsString → JsString
  | [] => []
  | [x] => x
  | x :: y :: rest => x ++ 0x2C :: joinComma (y :: rest)

/-- `"key":value`, from the key and the text of the value. -/
def renderField (f : JsString × JsString) : JsString := jsonQuote f.1 ++ 0x3A :: f.2

/-- The fields of an object by increasing key. -/
def sortFields {α : Type} (fs : List (JsString × α)) : List (JsString × α) :=
  fs.insertionSort fun a b => a.1 ≤ b.1

namespace Json

variable (F : NumberFormat)

mutual
/-- `JSON.stringify(value)`. -/
def stringify : Json → JsString
  | null => js "null"
  | bool b => if b then js "true" else js "false"
  | num q => F.numberText q
  | str s => jsonQuote s
  | arr xs => 0x5B :: (joinComma (stringifyItems xs) ++ [0x5D])
  | obj fs => 0x7B :: (joinComma ((stringifyFields fs).map renderField) ++ [0x7D])

def stringifyItems : List Json → List JsString
  | [] => []
  | x :: xs => stringify x :: stringifyItems xs

def stringifyFields : List (JsString × Json) → List (JsString × JsString)
  | [] => []
  | (k, v) :: fs => (k, stringify v) :: stringifyFields fs
end

mutual
/-- `String(value)`. -/
def toText : Json → JsString
  | null => js "null"
  | bool b => if b then js "true" else js "false"
  | num q => F.numberText q
  | str s => s
  | arr xs => joinComma (toTextItems xs)
  | obj _ => js "[object Object]"

-- `Array.prototype.join` writes nothing for a `null` item
def toTextItems : List Json → List JsString
  | [] => []
  | null :: xs => [] :: toTextItems xs
  | x :: xs => toText x :: toTextItems xs
end

mutual
/-- `canonicalize(value)`: `JSON.stringify` with the keys of every object sorted. On a
JSON value it never throws. -/
def canonicalize : Json → JsString
  | null => js "null"
  | bool b => if b then js "true" else js "false"
  | num q => F.numberText q
  | str s => jsonQuote s
  | arr xs => 0x5B :: (joinComma (canonicalizeItems xs) ++ [0x5D])
  | obj fs => 0x7B :: (joinComma ((sortFields (canonicalizeFields fs)).map renderField) ++ [0x7D])

def canonicalizeItems : List Json → List JsString
  | [] => []
  | x :: xs => canonicalize x :: canonicalizeItems xs

def canonicalizeFields : List (JsString × Json) → List (JsString × JsString)
  | [] => []
  | (k, v) :: fs => (k, canonicalize v) :: canonicalizeFields fs
end

end Json

/-! ## Equality up to the order of keys -/

namespace Json

mutual
/-- The value with the keys of every object in increasing order. -/
def normalize : Json → Json
  | arr xs => arr (normalizeItems xs)
  | obj fs => obj (sortFields (normalizeFields fs))
  | j => j

def normalizeItems : List Json → List Json
  | [] => []
  | x :: xs => normalize x :: normalizeItems xs

def normalizeFields : List (JsString × Json) → List (JsString × Json)
  | [] => []
  | (k, v) :: fs => (k, normalize v) :: normalizeFields fs
end

/-- **Equal as JSON values**: equal up to the order of object keys, at every depth. -/
def Same (a b : Json) : Prop := a.normalize = b.normalize

/-- No object in the value has a key twice, as in every value that the language builds. -/
inductive UniqueKeys : Json → Prop
  | null : UniqueKeys null
  | bool (b : Bool) : UniqueKeys (bool b)
  | num (q : ℚ) : UniqueKeys (num q)
  | str (s : JsString) : UniqueKeys (str s)
  | arr {xs : List Json} : (∀ x ∈ xs, UniqueKeys x) → UniqueKeys (arr xs)
  | obj {fs : List (JsString × Json)} : (fs.map Prod.fst).Nodup → (∀ f ∈ fs, UniqueKeys f.2) → UniqueKeys (obj fs)

/-- Deep equality: arrays item by item, objects key by key in whatever order. -/
inductive Equal : Json → Json → Prop
  | null : Equal null null
  | bool (b : Bool) : Equal (bool b) (bool b)
  | num (q : ℚ) : Equal (num q) (num q)
  | str (s : JsString) : Equal (str s) (str s)
  | arr {xs ys : List Json} : xs.length = ys.length →
      (∀ (i : ℕ) (x y : Json), xs[i]? = some x → ys[i]? = some y → Equal x y) → Equal (arr xs) (arr ys)
  | obj {fs gs : List (JsString × Json)} : (∀ k, k ∈ fs.map Prod.fst ↔ k ∈ gs.map Prod.fst) →
      (∀ k x y, (k, x) ∈ fs → (k, y) ∈ gs → Equal x y) → Equal (obj fs) (obj gs)

end Json

/-! ## Reading options -/

/-- `a ?? b ?? …`. -/
def firstOf : List (Option Json) → Option Json
  | [] => none
  | [a] => a
  | a :: b :: rest => Json.orElse a (firstOf (b :: rest))

/-- `value?.a?.b`. -/
def path (value : Option Json) : List String → Option Json
  | [] => value
  | key :: rest => path (value.bind (·.get (js key))) rest

/-! ## Strict equality -/

/-- `a === b`, for values of which no two are one object. -/
def sameValue : Json → Json → Bool
  | .null, .null => true
  | .bool a, .bool b => a == b
  | .num a, .num b => a == b
  | .str a, .str b => a == b
  | _, _ => false

/-- `set.has(value)`. -/
def hasValue (set : List Json) (value : Json) : Bool := set.any (sameValue · value)

/-- `[...new Set(values)]`. -/
def distinctValues (values : List Json) : List Json :=
  values.foldl (fun out value => if hasValue out value then out else out ++ [value]) []

/-- `a === b` for fields that may be missing. -/
def strictEq : Option Json → Option Json → Bool
  | none, none => true
  | some a, some b => sameValue a b
  | _, _ => false

end EnigmaMemory
