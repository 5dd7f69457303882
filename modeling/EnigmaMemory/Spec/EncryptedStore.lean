import EnigmaMemory.Lib.Ordered
import EnigmaMemory.Spec.Json

/-!
# The node's store

`EncryptedStore` (`store.mjs`): a table of records and a table of embeddings in SQLite, both by text
key and in the order in which rows were inserted. Rows are encrypted on the way in and decrypted on
the way out with one key, which is not seen here; nor are the times at which rows were stored.

SQLite keeps text in UTF-8, so that two keys name one row if they differ in lone surrogates only
(`toWellFormed`). Vectors are a type of their own.
-/

namespace EnigmaMemory

def isSurrogate (c : CodeUnit) : Bool := isHighSurrogate c || isLowSurrogate c

/-- `s.toWellFormed()`: every lone surrogate becomes U+FFFD. -/
def toWellFormed : JsString → JsString
  | c :: d :: rest =>
    if isHighSurrogate c && isLowSurrogate d then c :: d :: toWellFormed rest
    else (if isSurrogate c then 0xFFFD else c) :: toWellFormed (d :: rest)
  | [c] => [if isSurrogate c then 0xFFFD else c]
  | [] => []

/-! ## `LIKE` -/

/-- Upper case ASCII letters as lower case ones. -/
def foldCase (c : CodeUnit) : CodeUnit := if 65 ≤ c.val ∧ c.val ≤ 90 then c + 32 else c

/-- `text LIKE pattern`: `%` stands for any text and `_` for any character. -/
def like : JsString → JsString → Bool
  | [], text => text.isEmpty
  | c :: pattern, text =>
    if c = 37 then text.tails.any (like pattern)
    else if c = 95 then
      match text with
      | h :: l :: rest => if isHighSurrogate h && isLowSurrogate l then like pattern rest else like pattern (l :: rest)
      | [_] => like pattern []
      | [] => false
    else
      match text with
      | d :: rest => foldCase c == foldCase d && like pattern rest
      | [] => false

example : like (js "a_%") (js "Abba") = true := by decide

/-- SQLite compares texts up to their first NUL. -/
def upToNul (s : JsString) : JsString := s.takeWhile (· ≠ 0)

/-! ## The store -/

structure EncryptedStore (V : Type) where
  records : OrdMap JsString Json
  embeddings : OrdMap JsString V

namespace EncryptedStore

variable {V : Type}

def empty : EncryptedStore V := ⟨.empty, .empty⟩

def keyError : JsError := ⟨.typeError, js "key must be a non-empty string"⟩

/-- The row of a key that is written. -/
def rowOf : Option Json → Except JsError JsString
  | some (.str s) => if s = [] then .error keyError else .ok (toWellFormed s)
  | _ => .error keyError

/-- The value in the row of a text. -/
def find (s : EncryptedStore V) (key : JsString) : Option Json := s.records.get (toWellFormed key)

/-- The record of a text set. -/
def write (s : EncryptedStore V) (key : JsString) (value : Json) : EncryptedStore V :=
  { s with records := s.records.set (toWellFormed key) value }

/-- The record of a text removed. -/
def erase (s : EncryptedStore V) (key : JsString) : EncryptedStore V :=
  { s with records := s.records.delete (toWellFormed key) }

/-- `put(key, value)`. -/
def put (s : EncryptedStore V) (key : Option Json) (value : Json) : Except JsError (EncryptedStore V) :=
  (rowOf key).map fun row => { s with records := s.records.set row value }

def putEmbedding (s : EncryptedStore V) (key : Option Json) (vector : V) : Except JsError (EncryptedStore V) :=
  (rowOf key).map fun row => { s with embeddings := s.embeddings.set row vector }

def search (s : EncryptedStore V) (keyPrefix : JsString) : List (JsString × Json) :=
  s.records.entries.filter fun e => like (upToNul (toWellFormed (keyPrefix ++ js "%"))) (upToNul e.1)

def codeKey (code : JsString) : JsString := js "oauth:code:" ++ code

def tokenKey (token : JsString) : JsString := js "oauth:token:" ++ token

def putOAuthCode (s : EncryptedStore V) (code : JsString) (data : Json) : EncryptedStore V := s.write (codeKey code) data

def getOAuthCode (s : EncryptedStore V) (code : JsString) : Option Json := s.find (codeKey code)

def deleteOAuthCode (s : EncryptedStore V) (code : JsString) : EncryptedStore V := s.erase (codeKey code)

def putOAuthToken (s : EncryptedStore V) (token : JsString) (data : Json) : EncryptedStore V := s.write (tokenKey token) data

def getOAuthToken (s : EncryptedStore V) (token : JsString) : Option Json := s.find (tokenKey token)

end EncryptedStore

end EnigmaMemory
