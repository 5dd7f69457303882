import EnigmaMemory.Spec.EncryptedStore

/-!
# Keys and rows of the store

* `toWellFormed_eq_self`, `toWellFormed_append`: a key without lone surrogates is its row, and an ASCII
  prefix of a key is a prefix of its row.
* `find_write`, `find_erase`: what a write leaves, up to the row.
-/

namespace EnigmaMemory

/-- A text in ASCII. -/
def isAscii (s : JsString) : Bool := s.all fun c => decide (c.val < 128)

@[simp] theorem isAscii_cons {c : CodeUnit} {s : JsString} : isAscii (c :: s) = true ↔ c.val < 128 ∧ isAscii s = true := by
  simp [isAscii]

theorem isSurrogate_ascii {c : CodeUnit} (h : c.val < 128) : isSurrogate c = false := by
  simp only [isSurrogate, isHighSurrogate, isLowSurrogate, Bool.or_eq_false_iff, decide_eq_false_iff_not, Fin.le_def]
  exact ⟨fun hc => absurd (hc.1.trans_lt h) (by decide), fun hc => absurd (hc.1.trans_lt h) (by decide)⟩

theorem not_high {c : CodeUnit} (h : isSurrogate c = false) : isHighSurrogate c = false := (Bool.or_eq_false_iff.1 h).1

theorem toWellFormed_cons {c : CodeUnit} (h : isSurrogate c = false) (s : JsString) :
    toWellFormed (c :: s) = c :: toWellFormed s := by
  cases s with
  | nil => simp [toWellFormed, h]
  | cons d s => simp [toWellFormed, h, not_high h]

theorem toWellFormed_append {p : JsString} (hp : isAscii p = true) (s : JsString) :
    toWellFormed (p ++ s) = p ++ toWellFormed s := by
  induction p with
  | nil => rfl
  | cons c p ih =>
    obtain ⟨hc, hp⟩ := isAscii_cons.1 hp
    rw [List.cons_append, toWellFormed_cons (isSurrogate_ascii hc), ih hp]
    rfl

theorem toWellFormed_ascii {p : JsString} (hp : isAscii p = true) : toWellFormed p = p := by
  have h := toWellFormed_append hp []
  rwa [List.append_nil, toWellFormed, List.append_nil] at h

theorem toWellFormed_eq_self : ∀ {s : JsString}, isWellFormed s = true → toWellFormed s = s
  | [], _ => rfl
  | [c], h => by
    cases hc : isHighSurrogate c <;> simp_all [isWellFormed, wellFormedFrom, toWellFormed, isSurrogate]
  | c :: d :: rest, h => by
    rw [isWellFormed, wellFormedFrom] at h
    cases hc : isHighSurrogate c with
    | true =>
      rw [hc, if_pos rfl, wellFormedFrom, Bool.and_eq_true] at h
      rw [toWellFormed, hc, h.1, Bool.and_self, if_pos rfl, toWellFormed_eq_self h.2]
    | false =>
      rw [hc, if_neg Bool.false_ne_true, Bool.and_eq_true, Bool.not_eq_true'] at h
      rw [toWellFormed_cons (by rw [isSurrogate, hc, h.1]; rfl), toWellFormed_eq_self h.2]

/-- A row starts with an ASCII unit only if the key does. -/
theorem exists_of_toWellFormed_cons {s u : JsString} {c : CodeUnit} (hc : c.val < 128)
    (h : toWellFormed s = c :: u) : ∃ t, s = c :: t ∧ toWellFormed t = u := by
  cases s with
  | nil => cases h
  | cons d t =>
    cases hd : isSurrogate d with
    | false =>
      rw [toWellFormed_cons hd] at h
      obtain ⟨rfl, rfl⟩ := List.cons.inj h
      exact ⟨t, rfl, rfl⟩
    | true =>
      -- the row starts with a surrogate or with the replacement character
      exfalso
      have hreplaced : c ≠ 0xFFFD := by
        rintro rfl
        exact absurd hc (by decide)
      cases t with
      | nil =>
        rw [toWellFormed, hd, if_pos rfl] at h
        exact hreplaced (List.cons.inj h).1.symm
      | cons e t =>
        rw [toWellFormed, hd, if_pos rfl] at h
        split at h
        · obtain ⟨rfl, -⟩ := List.cons.inj h
          rw [isSurrogate_ascii hc] at hd
          cases hd
        · exact hreplaced (List.cons.inj h).1.symm

theorem exists_of_toWellFormed_append {p : JsString} (hp : isAscii p = true) : ∀ {s u : JsString}, toWellFormed s = p ++ u →
    ∃ t, s = p ++ t ∧ toWellFormed t = u := by
  induction p with
  | nil => intro s u h; exact ⟨s, rfl, h⟩
  | cons c p ih =>
    intro s u h
    obtain ⟨hc, hp⟩ := isAscii_cons.1 hp
    obtain ⟨t, rfl, ht⟩ := exists_of_toWellFormed_cons hc h
    obtain ⟨t', rfl, ht'⟩ := ih hp ht
    exact ⟨t', rfl, ht'⟩

namespace EncryptedStore

variable {V : Type}

@[simp] theorem find_write (s : EncryptedStore V) (key other : JsString) (value : Json) :
    (s.write key value).find other = if toWellFormed other = toWellFormed key then some value else s.find other :=
  OrdMap.get_set

@[simp] theorem find_erase (s : EncryptedStore V) (key other : JsString) :
    (s.erase key).find other = if toWellFormed other = toWellFormed key then none else s.find other := OrdMap.get_delete

theorem ascii_code : isAscii (js "oauth:code:") = true := by decide

theorem ascii_token : isAscii (js "oauth:token:") = true := by decide

/-- Codes have a row of their own each, tokens too, and no code shares one with a token. -/
theorem codeKey_row (a b : JsString) : toWellFormed (codeKey a) = toWellFormed (codeKey b) ↔ toWellFormed a = toWellFormed b := by
  rw [codeKey, codeKey, toWellFormed_append ascii_code, toWellFormed_append ascii_code, List.append_cancel_left_eq]

theorem tokenKey_row (a b : JsString) : toWellFormed (tokenKey a) = toWellFormed (tokenKey b) ↔ toWellFormed a = toWellFormed b := by
  rw [tokenKey, tokenKey, toWellFormed_append ascii_token, toWellFormed_append ascii_token, List.append_cancel_left_eq]

theorem codeKey_row_ne (a b : JsString) : toWellFormed (codeKey a) ≠ toWellFormed (tokenKey b) := by
  rw [codeKey, tokenKey, toWellFormed_append ascii_code, toWellFormed_append ascii_token]
  intro h
  have hsplit := congrArg (List.take 7) h
  rw [List.take_append_of_le_length (by decide), List.take_append_of_le_length (by decide)] at hsplit
  exact absurd hsplit (by decide)

@[simp] theorem getOAuthCode_putOAuthCode (s : EncryptedStore V) (a b : JsString) (data : Json) :
    (s.putOAuthCode a data).getOAuthCode b = if toWellFormed b = toWellFormed a then some data else s.getOAuthCode b := by
  rw [getOAuthCode, putOAuthCode, find_write]
  simp only [codeKey_row]
  rfl

@[simp] theorem getOAuthCode_deleteOAuthCode (s : EncryptedStore V) (a b : JsString) :
    (s.deleteOAuthCode a).getOAuthCode b = if toWellFormed b = toWellFormed a then none else s.getOAuthCode b := by
  rw [getOAuthCode, deleteOAuthCode, find_erase]
  simp only [codeKey_row]
  rfl

@[simp] theorem getOAuthCode_putOAuthToken (s : EncryptedStore V) (a b : JsString) (data : Json) :
    (s.putOAuthToken a data).getOAuthCode b = s.getOAuthCode b := by
  rw [getOAuthCode, putOAuthToken, find_write, if_neg (codeKey_row_ne b a)]
  rfl

@[simp] theorem getOAuthToken_putOAuthCode (s : EncryptedStore V) (a b : JsString) (data : Json) :
    (s.putOAuthCode a data).getOAuthToken b = s.getOAuthToken b := by
  rw [getOAuthToken, putOAuthCode, find_write, if_neg (codeKey_row_ne a b).symm]
  rfl

@[simp] theorem getOAuthToken_deleteOAuthCode (s : EncryptedStore V) (a b : JsString) :
    (s.deleteOAuthCode a).getOAuthToken b = s.getOAuthToken b := by
  rw [getOAuthToken, deleteOAuthCode, find_erase, if_neg (codeKey_row_ne a b).symm]
  rfl

@[simp] theorem getOAuthToken_putOAuthToken (s : EncryptedStore V) (a b : JsString) (data : Json) :
    (s.putOAuthToken a data).getOAuthToken b = if toWellFormed b = toWellFormed a then some data else s.getOAuthToken b := by
  rw [getOAuthToken, putOAuthToken, find_write]
  simp only [tokenKey_row]
  rfl

end EncryptedStore

end EnigmaMemory
