import EnigmaMemory.Proof.Canonical
import EnigmaMemory.Proof.Import

/-!
# Sanitizing what has been sanitized

Records are sanitized again on every update, export and import. Sanitized metadata is
recognised (`metadata_twice`), and so is a digest under `source_hash`; any other string in
a source reference is hashed once more each time. `settled` says which references come
back as they are, and `stable` which values are sanitized once and for all.

* `sanitizeSourceRefValue_eq_self`, `sanitizeSourceRefs_eq_self`: a sanitized reference is
  kept exactly when it is settled.
* `sanitize_twice_iff`: sanitizing a value twice is sanitizing it once exactly when the
  value is stable.
-/

namespace EnigmaMemory

open Json

variable {F : NumberFormat}

/-! ## Keys -/

theorem normalizedPublicKey_append (s t : JsString) :
    normalizedPublicKey (s ++ t) = normalizedPublicKey s ++ normalizedPublicKey t := by
  rw [normalizedPublicKey, toLowerCase, List.flatMap_append, List.filter_append]
  rfl

/-- A key that ends in `_commitment` names no plaintext. -/
theorem commitment_notMem {names : List JsString} (hnames : ∀ n ∈ names, (js "commitment").isSuffixOf n = false) (s : JsString) :
    isPlaintextKeyOf names (s ++ js "_commitment") = false := by
  rw [isPlaintextKeyOf, decide_eq_false_iff_not, normalizedPublicKey_append]
  intro hmem
  have hsuffix := hnames _ hmem
  have hnorm : normalizedPublicKey (js "_commitment") = js "commitment" := by decide
  rw [hnorm] at hsuffix
  have htrue : (js "commitment").isSuffixOf (normalizedPublicKey s ++ js "commitment") = true :=
    List.isSuffixOf_iff_suffix.2 (List.suffix_append _ _)
  rw [htrue] at hsuffix
  cases hsuffix

theorem publicPlaintextKeys_commitment : ∀ n ∈ publicPlaintextKeys, (js "commitment").isSuffixOf n = false := by decide

theorem isPlaintextLikeKey_commitment (s : JsString) : isPlaintextLikeKey (s ++ js "_commitment") = false :=
  commitment_notMem publicPlaintextKeys_commitment s

/-- Two suffixes of one string, neither a suffix of the other. -/
theorem not_count_of_commitment (s : JsString) : (js "_count").isSuffixOf (s ++ js "_commitment") = false := by
  rw [← Bool.not_eq_true, List.isSuffixOf_iff_suffix]
  intro h
  have hsuffix := List.suffix_of_suffix_length_le h (List.suffix_append s (js "_commitment")) (by decide)
  exact absurd (List.isSuffixOf_iff_suffix.2 hsuffix) (by decide)

/-! ## Objects built field by field -/

/-- Fields set one after the other, under different new keys. -/
theorem foldl_set_fields {α : Type} (key : α → JsString) (value : α → Json) (l : List α) : ∀ acc : List (JsString × Json),
    ((acc.map Prod.fst) ++ l.map key).Nodup →
    l.foldl (fun out x => Json.set out (key x) (value x)) (Json.obj acc) = .obj (acc ++ l.map fun x => (key x, value x)) := by
  induction l with
  | nil => intro acc _; simp
  | cons x l ih =>
    intro acc hn
    have hnot : key x ∉ acc.map Prod.fst := by
      intro hx
      exact (List.nodup_append.1 hn).2.2 _ hx _ (by simp) rfl
    have hset : (Json.obj acc).set (key x) (value x) = .obj (acc ++ [(key x, value x)]) := by
      rw [Json.set, Json.fields]
      congr 1
      rw [Json.setField_eq]
      exact OrdMap.setEntries_of_notMem hnot
    rw [List.foldl_cons, hset, ih]
    · simp
    · simpa using hn

/-! ## Metadata -/

/-- An entry that `metadata` keeps. -/
def isKept (e : JsString × Json) : Bool := isMetadataPrimitive e.2 && isSafeMetadataPrimitive e.1 e.2

theorem isKept_commitment (s t : JsString) : isKept (s ++ js "_commitment", .str (prefixedSha256 t)) = true := by
  have hsuffix : (js "_commitment").isSuffixOf (s ++ js "_commitment") = true :=
    List.isSuffixOf_iff_suffix.2 (List.suffix_append _ _)
  have hdigest : isSafeDigest (prefixedSha256 t) = true := by
    rw [isSafeDigest, isRoot_prefixedSha256]
    rfl
  simp only [isKept, isMetadataPrimitive, isSafeMetadataPrimitive, isPlaintextLikeKey_commitment, not_count_of_commitment,
    hsuffix, hdigest, Bool.true_or, Bool.true_and, if_true, if_false, Bool.false_eq_true]

/-- What every entry of an object has, a set entry keeps. -/
theorem forall_mem_set {p : JsString × Json → Prop} {j : Json} {key : JsString} {x : Json} (h : ∀ e ∈ j.fields, p e)
    (hx : p (key, x)) : ∀ e ∈ (j.set key x).fields, p e := by
  rw [Json.set, Json.fields]
  revert h
  induction j.fields with
  | nil =>
    intro _ e he
    rw [Json.setField, List.mem_singleton] at he
    exact he ▸ hx
  | cons f fs ih =>
    intro h e he
    rw [Json.setField] at he
    split at he
    · rcases List.mem_cons.1 he with rfl | he
      · exact hx
      · exact h e (by simp [he])
    · rcases List.mem_cons.1 he with rfl | he
      · exact h e (by simp)
      · exact ih (fun e he => h e (by simp [he])) e he

theorem metadata_kept (input : Option Json) : ∃ fs, metadata F input = .obj fs ∧ (fs.map Prod.fst).Nodup ∧
    ∀ e ∈ fs, isKept e = true := by
  have hfold : ∀ (l : List (JsString × Json)) (out : Json), out.isPlainRecord = true → out.keys.Nodup →
      (∀ e ∈ out.fields, isKept e = true) → ∃ fs, l.foldl (metadataEntry F) out = .obj fs ∧ (fs.map Prod.fst).Nodup ∧
        ∀ e ∈ fs, isKept e = true := by
    intro l
    induction l with
    | nil =>
      intro out hplain hn hkept
      cases out with
      | obj fs => exact ⟨fs, rfl, hn, hkept⟩
      | _ => cases hplain
    | cons e l ih =>
      intro out hplain hn hkept
      rw [List.foldl_cons]
      unfold metadataEntry
      split
      · rename_i hprim
        split
        · rename_i hsafe
          refine ih _ rfl (Json.nodup_set hn) (forall_mem_set hkept ?_)
          rw [isKept, hprim, hsafe]
          rfl
        · exact ih _ rfl (Json.nodup_set hn) (forall_mem_set hkept (isKept_commitment _ _))
      · exact ih _ rfl (Json.nodup_set hn) (forall_mem_set hkept (isKept_commitment _ _))
  unfold metadata
  cases input with
  | none => exact ⟨[], rfl, List.nodup_nil, by simp⟩
  | some j => exact hfold _ _ rfl List.nodup_nil (by simp [Json.fields])

/-- **Sanitized metadata is kept.** -/
theorem metadata_twice (input : Option Json) : metadata F (some (metadata F input)) = metadata F input := by
  obtain ⟨fs, hfs, hn, hkept⟩ := metadata_kept (F := F) input
  rw [hfs, metadata, entries]
  have hcongr : fs.foldl (metadataEntry F) (.obj []) = fs.foldl (fun out e => Json.set out e.1 e.2) (.obj []) := by
    refine List.foldl_ext _ _ _ fun out e he => ?_
    have h := hkept e he
    rw [isKept, Bool.and_eq_true] at h
    rw [metadataEntry, if_pos h.1, if_pos h.2]
  rw [hcongr, foldl_set_fields Prod.fst Prod.snd fs [] (by simpa using hn)]
  simp

/-! ## Source references -/

/-- A list that a partial map keeps entry by entry. -/
theorem filterMap_eq_self {α : Type} {f : α → Option α} {l : List α} : l.filterMap f = l ↔ ∀ x ∈ l, f x = some x := by
  induction l with
  | nil => simp
  | cons x l ih =>
    rw [List.filterMap_cons, List.forall_mem_cons]
    cases hx : f x with
    | none =>
      refine iff_of_false (fun h => ?_) (by simp)
      have hlen : (l.filterMap f).length = l.length + 1 := congrArg List.length h
      have hle := List.length_filterMap_le f l
      omega
    | some y => simp [ih]

/-- A key that `sanitizeSourceRefValue` keeps. -/
def isRefKey (key : JsString) : Bool := !(isPlaintextKeyOf publicPlaintextKeys key || normalizedPublicKey key == js "value")

/-- A digest under `source_hash`. -/
def isSourceHash (key : JsString) (item : Json) : Bool :=
  decide (key = js "source_hash") && (match item with | .str s => isRoot s | _ => false)

mutual
/-- A sanitized reference without strings that would be hashed again: the only strings are
digests under `source_hash` (or a string that is its own digest). -/
def settled : Json → Bool
  | .null => false
  | .bool _ | .num _ => true
  | .str s => prefixedSha256 s == s
  | .arr xs => settledItems xs
  | .obj fs => !fs.isEmpty && decide (fs.map Prod.fst).Nodup && settledFields fs

def settledItems : List Json → Bool
  | [] => true
  | x :: xs => settled x && settledItems xs

def settledFields : List (JsString × Json) → Bool
  | [] => true
  | (key, item) :: fs => isRefKey key && (isSourceHash key item || settled item) && settledFields fs
end

theorem settledItems_eq (xs : List Json) : settledItems xs = xs.all settled := by
  induction xs with
  | nil => rfl
  | cons x xs ih => rw [settledItems, ih, List.all_cons]

theorem settledFields_eq (fs : List (JsString × Json)) :
    settledFields fs = fs.all fun f => isRefKey f.1 && (isSourceHash f.1 f.2 || settled f.2) := by
  induction fs with
  | nil => rfl
  | cons f fs ih => rw [settledFields, ih, List.all_cons]

theorem sanitizeSourceRefItems_eq (names : List JsString) (xs : List Json) :
    sanitizeSourceRefItems F names xs = xs.filterMap (sanitizeSourceRefValue F names) := by
  induction xs with
  | nil => rfl
  | cons x xs ih =>
    rw [sanitizeSourceRefItems, ih, List.filterMap_cons]
    cases sanitizeSourceRefValue F names x <;> rfl

/-- What becomes of a field under a key that is kept. -/
def refField (F : NumberFormat) (f : JsString × Json) : Option (JsString × Json) :=
  if isSourceHash f.1 f.2 then some f else (sanitizeSourceRefValue F publicPlaintextKeys f.2).map fun v => (f.1, v)

theorem isRefKey_private (key : JsString) : isRefKey (privateCommitmentKey key) = true := by
  have hvalue : normalizedPublicKey (js "private_field_" ++ (sha256Hex (normalizedPublicKey key)).take 12 ++ js "_commitment") ≠
      js "value" := by
    intro h
    rw [normalizedPublicKey_append] at h
    have hlen := congrArg List.length h
    have hnorm : (normalizedPublicKey (js "_commitment")).length = 10 := by decide
    have hfive : (js "value").length = 5 := by decide
    rw [List.length_append, hnorm, hfive] at hlen
    omega
  rw [isRefKey, privateCommitmentKey, commitment_notMem publicPlaintextKeys_commitment, Bool.false_or, Bool.not_eq_true',
    beq_eq_false_iff_ne]
  exact hvalue

theorem sanitizeSourceRefFields_cons (names : List JsString) (out item : Json) (key : JsString) (fs : List (JsString × Json)) :
    sanitizeSourceRefFields F names out ((key, item) :: fs) =
      if isPlaintextKeyOf names key || normalizedPublicKey key == js "value" then
        match item with
        | .null | .arr _ | .obj _ => sanitizeSourceRefFields F names out fs
        | _ => sanitizeSourceRefFields F names
            (out.set (privateCommitmentKey key) (.str (prefixedSha256 (item.toText F)))) fs
      else if isSourceHash key item then sanitizeSourceRefFields F names (out.set key item) fs
      else
        match sanitizeSourceRefValue F names item with
        | some v => sanitizeSourceRefFields F names (out.set key v) fs
        | none => sanitizeSourceRefFields F names out fs := by
  rw [sanitizeSourceRefFields.eq_def]
  cases item <;> simp only [isSourceHash, Bool.and_eq_true, decide_eq_true_eq, Bool.false_eq_true, and_false] <;> rfl

/-- A sanitized reference has kept keys only, each of them once. -/
theorem sanitizeSourceRefFields_keys (fs : List (JsString × Json)) : ∀ out : Json, out.keys.Nodup →
    (∀ e ∈ out.fields, isRefKey e.1 = true) → (sanitizeSourceRefFields F publicPlaintextKeys out fs).keys.Nodup ∧
      ∀ e ∈ (sanitizeSourceRefFields F publicPlaintextKeys out fs).fields, isRefKey e.1 = true := by
  induction fs with
  | nil =>
    intro out hn hkeys
    rw [sanitizeSourceRefFields]
    exact ⟨hn, hkeys⟩
  | cons f fs ih =>
    obtain ⟨key, item⟩ := f
    intro out hn hkeys
    rw [sanitizeSourceRefFields_cons]
    split
    · split
      · exact ih out hn hkeys
      · exact ih out hn hkeys
      · exact ih out hn hkeys
      · exact ih _ (Json.nodup_set hn) (forall_mem_set hkeys (isRefKey_private key))
    · rename_i hkey
      have hkept : isRefKey key = true := by simpa [isRefKey] using hkey
      split
      · exact ih _ (Json.nodup_set hn) (forall_mem_set hkeys hkept)
      · split
        · exact ih _ (Json.nodup_set hn) (forall_mem_set hkeys hkept)
        · exact ih out hn hkeys

/-- Under kept keys a reference is sanitized field by field. -/
theorem sanitizeSourceRefFields_eq (fs : List (JsString × Json)) : ∀ acc : List (JsString × Json),
    (acc.map Prod.fst ++ fs.map Prod.fst).Nodup → (∀ f ∈ fs, isRefKey f.1 = true) →
    sanitizeSourceRefFields F publicPlaintextKeys (.obj acc) fs = .obj (acc ++ fs.filterMap (refField F)) := by
  induction fs with
  | nil =>
    intro acc _ _
    rw [sanitizeSourceRefFields]
    simp
  | cons f fs ih =>
    obtain ⟨key, item⟩ := f
    intro acc hn hkeys
    have hset : ∀ x : Json, (Json.obj acc).set key x = .obj (acc ++ [(key, x)]) := by
      intro x
      rw [Json.set, Json.fields]
      congr 1
      rw [Json.setField_eq]
      refine OrdMap.setEntries_of_notMem fun hmem => ?_
      exact (List.nodup_append.1 hn).2.2 _ hmem _ (by simp) rfl
    have hkey : (isPlaintextKeyOf publicPlaintextKeys key || normalizedPublicKey key == js "value") = false := by
      have h := hkeys (key, item) (by simp)
      rwa [isRefKey, Bool.not_eq_true'] at h
    have hrest : ∀ f ∈ fs, isRefKey f.1 = true := fun f hf => hkeys f (by simp [hf])
    have hn' : ∀ x : Json, ((acc ++ [(key, x)]).map Prod.fst ++ fs.map Prod.fst).Nodup := by
      intro x
      simpa using hn
    rw [sanitizeSourceRefFields_cons, if_neg (by simp [hkey]), List.filterMap_cons, refField]
    by_cases hhash : isSourceHash key item = true
    · rw [if_pos hhash, hset, ih _ (hn' item) hrest, if_pos hhash]
      simp
    · rw [if_neg hhash, if_neg hhash]
      cases sanitizeSourceRefValue F publicPlaintextKeys item with
      | some x =>
        simp only [Option.map_some]
        rw [hset, ih _ (hn' x) hrest]
        simp
      | none =>
        simp only [Option.map_none]
        refine ih acc ?_ hrest
        rw [List.map_cons] at hn
        exact (List.nodup_middle.1 hn).of_cons

theorem refField_eq_self {f : JsString × Json} (h : sanitizeSourceRefValue F publicPlaintextKeys f.2 = some f.2 ↔ settled f.2 = true) :
    refField F f = some f ↔ (isSourceHash f.1 f.2 || settled f.2) = true := by
  unfold refField
  cases isSourceHash f.1 f.2 with
  | true => simp
  | false =>
    simp only [Bool.false_eq_true, if_false, Bool.false_or, ← h]
    cases sanitizeSourceRefValue F publicPlaintextKeys f.2 with
    | none => simp
    | some x => simp [Prod.ext_iff]

/-- **A reference is kept exactly when it is settled.** -/
theorem sanitizeSourceRefValue_eq_self (j : Json) :
    sanitizeSourceRefValue F publicPlaintextKeys j = some j ↔ settled j = true := by
  induction j using Json.ind with
  | hnull => simp [sanitizeSourceRefValue, settled]
  | hbool b => simp [sanitizeSourceRefValue, settled]
  | hnum q => simp [sanitizeSourceRefValue, settled]
  | hstr s => simp [sanitizeSourceRefValue, settled]
  | harr xs ih =>
    rw [sanitizeSourceRefValue, settled, settledItems_eq, sanitizeSourceRefItems_eq, Option.some.injEq, Json.arr.injEq,
      filterMap_eq_self, List.all_eq_true]
    exact forall₂_congr ih
  | hobj fs ih =>
    have hfields : ∀ f ∈ fs, refField F f = some f ↔ (isSourceHash f.1 f.2 || settled f.2) = true :=
      fun f hf => refField_eq_self (ih f hf)
    rw [sanitizeSourceRefValue, settled, settledFields_eq, Bool.and_eq_true, Bool.and_eq_true, List.all_eq_true,
      decide_eq_true_eq, Bool.not_eq_true', List.isEmpty_eq_false_iff]
    constructor
    · intro h
      obtain ⟨hne, hout⟩ : (sanitizeSourceRefFields F publicPlaintextKeys (.obj []) fs).fields.isEmpty = false ∧
          sanitizeSourceRefFields F publicPlaintextKeys (.obj []) fs = .obj fs := by
        split at h
        · cases h
        · rename_i hne
          exact ⟨by simpa using hne, Option.some.inj h⟩
      obtain ⟨hn, hkeys⟩ := sanitizeSourceRefFields_keys (F := F) fs (.obj []) List.nodup_nil (by simp [Json.fields])
      rw [hout] at hne hn hkeys
      have heq := sanitizeSourceRefFields_eq (F := F) fs [] (by simpa [Json.keys] using hn) hkeys
      rw [hout, List.nil_append, Json.obj.injEq, eq_comm, filterMap_eq_self] at heq
      refine ⟨⟨List.isEmpty_eq_false_iff.1 hne, hn⟩, fun f hf => ?_⟩
      rw [hkeys f hf, Bool.true_and]
      exact (hfields f hf).1 (heq f hf)
    · rintro ⟨⟨hne, hn⟩, hall⟩
      have hsplit : ∀ f ∈ fs, isRefKey f.1 = true ∧ (isSourceHash f.1 f.2 || settled f.2) = true :=
        fun f hf => by simpa using hall f hf
      rw [sanitizeSourceRefFields_eq fs [] (by simpa using hn) fun f hf => (hsplit f hf).1, List.nil_append,
        filterMap_eq_self.2 fun f hf => (hfields f hf).2 (hsplit f hf).2, if_neg]
      simpa [Json.fields] using hne

/-- A reference of a list: a string there becomes an object. -/
def settledRef : Json → Bool
  | .str _ => false
  | ref => settled ref

theorem sanitizeSourceRefs_eq_self (refs : List Json) :
    sanitizeSourceRefs F publicPlaintextKeys (some (.arr refs)) = refs ↔ refs.all settledRef = true := by
  let keep : Json → Option Json := fun ref => match ref with
    | .str s => some (.obj [(js "source_hash", .str (prefixedSha256 s))])
    | ref => sanitizeSourceRefValue F publicPlaintextKeys ref
  have hkeep : ∀ ref, sanitizeSourceRef F publicPlaintextKeys ref = (keep ref).toList := by
    intro ref
    cases ref <;> rfl
  have hself : ∀ ref, keep ref = some ref ↔ settledRef ref = true := by
    intro ref
    cases ref with
    | str s => simp [keep, settledRef]
    | _ => exact sanitizeSourceRefValue_eq_self _
  have hmap : sanitizeSourceRefs F publicPlaintextKeys (some (.arr refs)) = refs.filterMap keep := by
    rw [sanitizeSourceRefs]
    induction refs with
    | nil => rfl
    | cons ref refs ih =>
      rw [List.flatMap_cons, List.filterMap_cons, hkeep, ih]
      cases keep ref <;> rfl
  rw [hmap, filterMap_eq_self, List.all_eq_true]
  exact forall₂_congr fun ref _ => hself ref

/-! ## References that are settled after the first sanitizing -/

/-- A digest that is its own digest. -/
def isFixed (s : JsString) : Bool := prefixedSha256 (prefixedSha256 s) == prefixedSha256 s

/-- A plaintext of a reference that is replaced by its digest; the others are dropped. -/
def isCommitted : Json → Bool
  | .null | .arr _ | .obj _ => false
  | _ => true

mutual
/-- A reference that is dropped. -/
def vanishes : Json → Bool
  | .null => true
  | .obj fs => vanishesFields fs
  | _ => false

def vanishesFields : List (JsString × Json) → Bool
  | [] => true
  | (key, item) :: fs => (if isRefKey key then vanishes item else !isCommitted item) && vanishesFields fs
end

/-- The key that a field of a reference is written to. -/
def refKey (f : JsString × Json) : Option JsString :=
  if isRefKey f.1 then if vanishes f.2 then none else some f.1
  else if isCommitted f.2 then some (privateCommitmentKey f.1) else none

/-- A string under `source_hash`. -/
def isSourceText (key : JsString) (item : Json) : Bool :=
  decide (key = js "source_hash") && (match item with | .str _ => true | _ => false)

mutual
/-- A reference whose strings, those under `source_hash` apart, are all dropped or
overwritten. -/
def once (F : NumberFormat) : Json → Bool
  | .str s => isFixed s
  | .arr xs => onceItems F xs
  | .obj fs => onceFields F fs
  | _ => true

def onceItems (F : NumberFormat) : List Json → Bool
  | [] => true
  | x :: xs => once F x && onceItems F xs

def onceFields (F : NumberFormat) : List (JsString × Json) → Bool
  | [] => true
  | (key, item) :: fs =>
    ((refKey (key, item)).isNone || fs.any (fun g => refKey g == refKey (key, item)) ||
      if isRefKey key then isSourceText key item || once F item else isFixed (item.toText F)) && onceFields F fs
end

/-- The references of a list: a string there is put under `source_hash`. -/
def refsOnce (F : NumberFormat) : Json → Bool
  | .arr refs => refs.all fun ref => match ref with
    | .str _ => true
    | ref => once F ref
  | _ => true

theorem onceItems_eq (xs : List Json) : onceItems F xs = xs.all (once F) := by
  induction xs with
  | nil => rfl
  | cons x xs ih => rw [onceItems, ih, List.all_cons]

theorem vanishesFields_eq (fs : List (JsString × Json)) :
    vanishesFields fs = fs.all fun f => if isRefKey f.1 then vanishes f.2 else !isCommitted f.2 := by
  induction fs with
  | nil => rfl
  | cons f fs ih => rw [vanishesFields, ih, List.all_cons]

/-- What a field of a reference writes. -/
def refWrite (F : NumberFormat) (f : JsString × Json) : Option (JsString × Json) :=
  if isRefKey f.1 then refField F f
  else if isCommitted f.2 then some (privateCommitmentKey f.1, .str (prefixedSha256 (f.2.toText F))) else none

theorem sanitizeSourceRefFields_writes (fs : List (JsString × Json)) : ∀ out : Json,
    sanitizeSourceRefFields F publicPlaintextKeys out fs =
      (fs.filterMap (refWrite F)).foldl (fun out w => out.set w.1 w.2) out := by
  induction fs with
  | nil =>
    intro out
    rw [sanitizeSourceRefFields]
    rfl
  | cons f fs ih =>
    obtain ⟨key, item⟩ := f
    intro out
    rw [sanitizeSourceRefFields_cons, List.filterMap_cons, refWrite]
    by_cases hkey : (isPlaintextKeyOf publicPlaintextKeys key || normalizedPublicKey key == js "value") = true
    · rw [if_pos hkey, if_neg (by simp [isRefKey, hkey])]
      cases item with
      | null | arr | obj => exact ih out
      | bool | num | str => exact ih _
    · have href : isRefKey key = true := by simpa [isRefKey] using hkey
      rw [if_neg hkey, if_pos href, refField]
      by_cases hhash : isSourceHash key item = true
      · rw [if_pos hhash, if_pos hhash]
        exact ih _
      · rw [if_neg hhash, if_neg hhash]
        cases sanitizeSourceRefValue F publicPlaintextKeys item with
        | none => exact ih out
        | some x => exact ih _

/-- Every entry that is not written again. -/
def lastWrites (q : JsString × Json → Bool) : List (JsString × Json) → Bool
  | [] => true
  | w :: ws => (ws.any (fun u => u.1 == w.1) || q w) && lastWrites q ws

theorem forall_mem_setField {q : JsString × Json → Prop} {key : JsString} {x : Json} {acc : List (JsString × Json)}
    (hn : (acc.map Prod.fst).Nodup) :
    (∀ e ∈ setField key x acc, q e) ↔ q (key, x) ∧ ∀ e ∈ acc, e.1 = key ∨ q e := by
  induction acc with
  | nil => simp [setField]
  | cons f acc ih =>
    rw [List.map_cons, List.nodup_cons] at hn
    rw [setField]
    split
    · rename_i hk
      have hrest : ∀ e ∈ acc, e.1 ≠ key := fun e he h => hn.1 (List.mem_map.2 ⟨e, he, h.trans hk.symm⟩)
      simp only [List.forall_mem_cons, hk, true_or, true_and, and_congr_right_iff]
      exact fun _ => forall₂_congr fun e he => (or_iff_right (hrest e he)).symm
    · rename_i hk
      simp only [List.forall_mem_cons, ih hn.2, hk, false_or]
      tauto

theorem forall_mem_writes {q : JsString × Json → Bool} (ws : List (JsString × Json)) : ∀ acc : List (JsString × Json),
    (acc.map Prod.fst).Nodup → ((∀ e ∈ (ws.foldl (fun out w => Json.set out w.1 w.2) (.obj acc)).fields, q e = true) ↔
      (∀ e ∈ acc, ws.any (fun u => u.1 == e.1) = true ∨ q e = true) ∧ lastWrites q ws = true) := by
  induction ws with
  | nil =>
    intro acc _
    simp [lastWrites, Json.fields]
  | cons w ws ih =>
    intro acc hn
    have hset : ((Json.obj acc).set w.1 w.2).keys.Nodup := Json.nodup_set (j := .obj acc) hn
    have hn' : ((setField w.1 w.2 acc).map Prod.fst).Nodup := hset
    rw [List.foldl_cons, Json.set, Json.fields, ih _ hn',
      forall_mem_setField (q := fun e => ws.any (fun u => u.1 == e.1) = true ∨ q e = true) hn, lastWrites, Bool.and_eq_true,
      Bool.or_eq_true]
    have hswap : ∀ e : JsString × Json, (e.1 = w.1 ∨ ws.any (fun u => u.1 == e.1) = true ∨ q e = true) ↔
        (w :: ws).any (fun u => u.1 == e.1) = true ∨ q e = true := by
      intro e
      rw [List.any_cons, Bool.or_eq_true, beq_iff_eq, or_assoc, eq_comm]
    simp only [hswap]
    tauto



theorem isPlainRecord_foldl_set (ws : List (JsString × Json)) : ∀ out : Json, out.isPlainRecord = true →
    (ws.foldl (fun out w => Json.set out w.1 w.2) out).isPlainRecord = true := by
  induction ws with
  | nil => exact fun out h => h
  | cons w ws ih => exact fun out _ => ih _ rfl

theorem foldl_set_isEmpty (ws : List (JsString × Json)) : ∀ out : Json, out.isPlainRecord = true →
    ((ws.foldl (fun out w => Json.set out w.1 w.2) out).fields = [] ↔ ws = [] ∧ out.fields = []) := by
  induction ws with
  | nil => simp
  | cons w ws ih =>
    intro out _
    rw [List.foldl_cons, ih _ rfl]
    refine iff_of_false (fun h => ?_) (by simp)
    have hmem : w.1 ∈ (out.set w.1 w.2).keys := Json.mem_keys_set.2 (Or.inl rfl)
    rw [Json.keys_eq, h.2] at hmem
    cases hmem

theorem refWrite_key {f : JsString × Json} (h : sanitizeSourceRefValue F publicPlaintextKeys f.2 = none ↔ vanishes f.2 = true) :
    (refWrite F f).map Prod.fst = refKey f := by
  unfold refWrite refKey refField
  by_cases hkey : isRefKey f.1 = true
  · rw [if_pos hkey, if_pos hkey]
    by_cases hhash : isSourceHash f.1 f.2 = true
    · obtain ⟨s, hs⟩ : ∃ s, f.2 = .str s := by
        cases hitem : f.2 with
        | str s => exact ⟨s, rfl⟩
        | _ => rw [hitem] at hhash; simp [isSourceHash] at hhash
      have hstays : vanishes f.2 = false := by rw [hs]; rfl
      rw [if_pos hhash, hstays]
      rfl
    · rw [if_neg hhash]
      cases hx : sanitizeSourceRefValue F publicPlaintextKeys f.2 with
      | none => rw [if_pos (h.1 hx)]; rfl
      | some x =>
        rw [if_neg fun hv => ?_]
        · rfl
        · rw [h.2 hv] at hx
          cases hx
  · rw [if_neg hkey, if_neg hkey]
    split <;> rfl

/-- The references that `sanitizeSourceRefValue` drops. -/
theorem sanitizeSourceRefValue_eq_none (j : Json) :
    sanitizeSourceRefValue F publicPlaintextKeys j = none ↔ vanishes j = true := by
  induction j using Json.ind with
  | hobj fs ih =>
    rw [sanitizeSourceRefValue, vanishes, vanishesFields_eq, sanitizeSourceRefFields_writes, ite_eq_left_iff,
      List.isEmpty_iff, foldl_set_isEmpty _ _ rfl]
    simp only [Json.fields, and_true, reduceCtorEq, imp_false, not_not, List.filterMap_eq_nil_iff, List.all_eq_true]
    refine forall₂_congr fun f hf => ?_
    rw [← Option.map_eq_none_iff (f := Prod.fst), refWrite_key (ih f hf), refKey]
    by_cases hkey : isRefKey f.1 = true
    · simp [hkey]
    · simp [hkey]
  | _ => simp [sanitizeSourceRefValue, vanishes]

theorem vanishes_once (j : Json) (h : vanishes j = true) : once F j = true := by
  cases j with
  | obj fs =>
    rw [vanishes, vanishesFields_eq, List.all_eq_true] at h
    rw [once]
    induction fs with
    | nil => rfl
    | cons f fs ih =>
      obtain ⟨key, item⟩ := f
      rw [List.forall_mem_cons] at h
      have hnone : refKey (key, item) = none := by
        have hkey := h.1
        rw [refKey]
        by_cases href : isRefKey key = true
        · simpa [href] using hkey
        · simpa [href] using hkey
      rw [onceFields, hnone, ih h.2]
      rfl
  | null | bool | num => rfl
  | str | arr => cases h

/-- What is written under a key is settled exactly when the field is to be hashed no more. -/
theorem refWrite_settled {f w : JsString × Json} (hw : refWrite F f = some w)
    (ih : ∀ x, sanitizeSourceRefValue F publicPlaintextKeys f.2 = some x → settled x = once F f.2) :
    (isSourceHash w.1 w.2 || settled w.2) =
      if isRefKey f.1 then isSourceText f.1 f.2 || once F f.2 else isFixed (f.2.toText F) := by
  obtain ⟨key, item⟩ := f
  unfold refWrite refField at hw
  by_cases hkey : isRefKey key = true
  · rw [if_pos hkey] at hw ⊢
    by_cases hhash : isSourceHash key item = true
    · rw [if_pos hhash] at hw
      cases hw
      have htext : isSourceText key item = true := by
        cases item with
        | str s =>
          rw [isSourceHash, Bool.and_eq_true] at hhash
          rw [isSourceText, hhash.1]
          rfl
        | _ => simp [isSourceHash] at hhash
      simp [hhash, htext]
    · rw [if_neg hhash, Option.map_eq_some_iff] at hw
      obtain ⟨x, hx, rfl⟩ := hw
      rw [ih x hx]
      congr 1
      -- the only strings that come out are digests
      cases item with
      | str s =>
        cases hx
        simp [isSourceHash, isSourceText, isRoot_prefixedSha256]
      | null => cases hx
      | bool | num | arr => cases hx; simp [isSourceHash, isSourceText]
      | obj fs =>
        rw [sanitizeSourceRefValue] at hx
        split at hx
        · cases hx
        · have hplain := isPlainRecord_foldl_set (fs.filterMap (refWrite F)) (.obj []) rfl
          rw [← sanitizeSourceRefFields_writes, Option.some.inj hx] at hplain
          cases x with
          | obj => simp [isSourceHash, isSourceText]
          | _ => cases hplain
  · rw [if_neg hkey] at hw ⊢
    split at hw
    · cases hw
      have hne : privateCommitmentKey key ≠ js "source_hash" := by
        intro h
        rw [privateCommitmentKey, List.append_assoc] at h
        exact absurd (List.head_eq_of_cons_eq h) (by decide)
      simp [isSourceHash, hne, settled, isFixed]
    · cases hw

theorem lastWrites_refs {fs : List (JsString × Json)} (ih : ∀ f ∈ fs, ∀ x,
    sanitizeSourceRefValue F publicPlaintextKeys f.2 = some x → settled x = once F f.2) :
    lastWrites (fun w => isSourceHash w.1 w.2 || settled w.2) (fs.filterMap (refWrite F)) = onceFields F fs := by
  have hkeys : ∀ f, (refWrite F f).map Prod.fst = refKey f := fun f => refWrite_key (sanitizeSourceRefValue_eq_none f.2)
  induction fs with
  | nil => rfl
  | cons f fs ihfs =>
    rw [List.forall_mem_cons] at ih
    obtain ⟨key, item⟩ := f
    rw [List.filterMap_cons, onceFields, ← ihfs ih.2, ← hkeys]
    cases hw : refWrite F (key, item) with
    | none => rfl
    | some w =>
      have hany : (fs.filterMap (refWrite F)).any (fun u => u.1 == w.1) = fs.any fun g => refKey g == some w.1 := by
        clear ih ihfs
        induction fs with
        | nil => rfl
        | cons g fs ihg =>
          rw [List.filterMap_cons, List.any_cons, ← hkeys, ← ihg]
          cases refWrite F g with
          | none => rfl
          | some u => simp
      rw [lastWrites, hany, refWrite_settled hw ih.1]
      rfl

/-- **A sanitized reference is settled exactly when no string of it is left to hash.** -/
theorem settled_eq_once (j : Json) : ∀ x, sanitizeSourceRefValue F publicPlaintextKeys j = some x → settled x = once F j := by
  induction j using Json.ind with
  | hnull => intro x hx; cases hx
  | hbool | hnum => intro x hx; cases hx; rfl
  | hstr s => intro x hx; cases hx; rfl
  | harr xs ih =>
    intro x hx
    cases hx
    rw [settled, settledItems_eq, once, onceItems_eq, sanitizeSourceRefItems_eq, List.all_filterMap, Bool.eq_iff_iff,
      List.all_eq_true, List.all_eq_true]
    refine forall₂_congr fun y hy => Bool.eq_iff_iff.1 ?_
    cases hs : sanitizeSourceRefValue F publicPlaintextKeys y with
    | none => exact (vanishes_once y ((sanitizeSourceRefValue_eq_none y).1 hs)).symm
    | some z => exact ih y hy z hs
  | hobj fs ih =>
    intro x hx
    have hkeys := sanitizeSourceRefFields_keys (F := F) fs (.obj []) List.nodup_nil (by simp [Json.fields])
    rw [sanitizeSourceRefValue] at hx
    split at hx
    · cases hx
    · rename_i hne
      rw [Option.some.injEq] at hx
      have hfold := sanitizeSourceRefFields_writes (F := F) fs (.obj [])
      have hplain := isPlainRecord_foldl_set (fs.filterMap (refWrite F)) (.obj []) rfl
      rw [← hfold, hx] at hplain
      rw [hx] at hkeys hne
      cases x with
      | obj out =>
        have hiff := forall_mem_writes (q := fun w => isSourceHash w.1 w.2 || settled w.2) (fs.filterMap (refWrite F)) []
          List.nodup_nil
        rw [← hfold, hx, lastWrites_refs ih] at hiff
        rw [once, Bool.eq_iff_iff, settled, settledFields_eq, Bool.and_eq_true, Bool.and_eq_true, List.all_eq_true]
        have hn : (out.map Prod.fst).Nodup := hkeys.1
        have hne' : (!out.isEmpty) = true := by simpa [Json.fields] using hne
        simp only [hn, hne', decide_true, true_and, Bool.and_eq_true]
        refine Iff.trans ?_ (hiff.trans (by simp))
        exact forall₂_congr fun e he => and_iff_right (hkeys.2 e he)
      | _ => cases hplain

theorem isRefKey_sourceHash : isRefKey (js "source_hash") = true := by decide

theorem settledRef_eq_refsOnce (refs : Json) :
    (sanitizeSourceRefs F publicPlaintextKeys (some refs)).all settledRef = refsOnce F refs := by
  cases refs with
  | arr xs =>
    rw [sanitizeSourceRefs, refsOnce, List.all_flatMap, Bool.eq_iff_iff, List.all_eq_true, List.all_eq_true]
    refine forall₂_congr fun ref _ => Bool.eq_iff_iff.1 ?_
    have hother : (∀ s, ref ≠ .str s) →
        ((sanitizeSourceRefValue F publicPlaintextKeys ref).toList).all settledRef = once F ref := by
      intro hne
      cases hs : sanitizeSourceRefValue F publicPlaintextKeys ref with
      | none => exact (vanishes_once ref ((sanitizeSourceRefValue_eq_none ref).1 hs)).symm
      | some x =>
        have hx : settledRef x = settled x := by
          cases x with
          | str s =>
            exfalso
            cases ref with
            | str s' => exact hne s' rfl
            | obj fs =>
              rw [sanitizeSourceRefValue, sanitizeSourceRefFields_writes] at hs
              split at hs
              · cases hs
              · have hplain := isPlainRecord_foldl_set (fs.filterMap (refWrite F)) (.obj []) rfl
                rw [Option.some.inj hs] at hplain
                cases hplain
            | _ => cases hs
          | _ => rfl
        rw [Option.toList_some, List.all_cons, List.all_nil, Bool.and_true, hx, settled_eq_once ref x hs]
    cases ref with
    | str s =>
      have hsettled : settled (.obj [(js "source_hash", .str (prefixedSha256 s))]) = true := by
        simp [settled, settledFields, isSourceHash, isRoot_prefixedSha256, isRefKey_sourceHash]
      simp [sanitizeSourceRef, settledRef, hsettled]
    | _ => exact hother (by simp)
  | _ => rfl

/-! ## Public values -/

def isRefsKey (key : JsString) : Bool := decide (key = js "source_refs" ∨ key = js "sourceRefs")

/-- The references that a sanitized object keeps: both names are written to `source_refs`. -/
def lastRefs : List (JsString × Json) → Option Json
  | [] => none
  | f :: fs => (lastRefs fs).or (if isRefsKey f.1 then some f.2 else none)

mutual
/-- A value that is sanitized once and for all: no string of the references in it is left
to hash. -/
def stable (F : NumberFormat) : Json → Bool
  | .arr xs => stableItems F xs
  | .obj fs => stableFields F fs &&
      (lastRefs fs).all (refsOnce F)
  | _ => true

def stableItems (F : NumberFormat) : List Json → Bool
  | [] => true
  | x :: xs => stable F x && stableItems F xs

def stableFields (F : NumberFormat) : List (JsString × Json) → Bool
  | [] => true
  | (key, item) :: fs => (!isPublicField key || stable F item) && stableFields F fs
end

theorem stableItems_eq (xs : List Json) : stableItems F xs = xs.all (stable F) := by
  induction xs with
  | nil => rfl
  | cons x xs ih => rw [stableItems, ih, List.all_cons]

theorem stableFields_eq (fs : List (JsString × Json)) :
    stableFields F fs = fs.all fun f => !isPublicField f.1 || stable F f.2 := by
  induction fs with
  | nil => rfl
  | cons f fs ih => rw [stableFields, ih, List.all_cons]

theorem sanitizePublicItems_eq (xs : List Json) : sanitizePublicItems F xs = xs.map (sanitizePublicValue F) := by
  induction xs with
  | nil => rfl
  | cons x xs ih => rw [sanitizePublicItems, ih, List.map_cons]

/-- A key of a sanitized object. -/
def isCleanKey (key : JsString) : Bool := !isPlaintextLikeKey key && decide (key ≠ js "sourceRefs")

theorem isCleanKey_iff {key : JsString} : isCleanKey key = true ↔
    isPublicField key = true ∨ key = js "metadata" ∨ key = js "source_refs" := by
  have hmeta : isPlaintextLikeKey (js "metadata") = false := by decide
  have hrefs : isPlaintextLikeKey (js "source_refs") = false := by decide
  rw [isCleanKey, isPublicField, Bool.and_eq_true, Bool.and_eq_true, decide_eq_true_eq, decide_eq_true_eq, Bool.not_eq_true']
  simp only [List.mem_cons, List.not_mem_nil, or_false, not_or]
  constructor
  · rintro ⟨hplain, hne⟩
    by_cases h1 : key = js "metadata"
    · exact Or.inr (Or.inl h1)
    · by_cases h2 : key = js "source_refs"
      · exact Or.inr (Or.inr h2)
      · exact Or.inl ⟨hplain, h1, h2, hne⟩
  · rintro (⟨hplain, -, -, hne⟩ | rfl | rfl)
    · exact ⟨hplain, hne⟩
    · exact ⟨hmeta, by simp⟩
    · exact ⟨hrefs, by simp⟩

theorem sanitizePublicFields_clean (fs : List (JsString × Json)) : ∀ out : Json, (∀ e ∈ out.fields, isCleanKey e.1 = true) →
    ∀ e ∈ (sanitizePublicFields F out fs).fields, isCleanKey e.1 = true := by
  have hmeta : isCleanKey (js "metadata") = true := by decide
  have hrefs : isCleanKey (js "source_refs") = true := by decide
  induction fs with
  | nil =>
    intro out h
    rwa [sanitizePublicFields]
  | cons f fs ih =>
    obtain ⟨key, item⟩ := f
    intro out h
    rw [sanitizePublicFields]
    split
    · exact ih out h
    · rename_i hplain
      split
      · exact ih _ (forall_mem_set h hmeta)
      · split
        · exact ih _ (forall_mem_set h hrefs)
        · rename_i hspecial
          refine ih _ (forall_mem_set h ?_)
          rw [isCleanKey, Bool.and_eq_true, decide_eq_true_eq, Bool.not_eq_true']
          exact ⟨by simpa using hplain, fun he => hspecial (Or.inr he)⟩

/-- What sanitizing makes of the field under a clean key. -/
def publicField (F : NumberFormat) (key : JsString) (item : Json) : Json :=
  if key = js "metadata" then metadata F (some item)
  else if key = js "source_refs" then .arr (sanitizeSourceRefs F publicPlaintextKeys (some item))
  else sanitizePublicValue F item

/-- Under clean keys an object is sanitized field by field. -/
theorem sanitizePublicFields_eq (fs : List (JsString × Json)) (hn : (fs.map Prod.fst).Nodup)
    (hclean : ∀ f ∈ fs, isCleanKey f.1 = true) :
    sanitizePublicFields F (.obj []) fs = .obj (fs.map fun f => (f.1, publicField F f.1 f.2)) := by
  have hfold : ∀ out, sanitizePublicFields F out fs =
      fs.foldl (fun out f => Json.set out f.1 (publicField F f.1 f.2)) out := by
    clear hn
    induction fs with
    | nil =>
      intro out
      rw [sanitizePublicFields]
      rfl
    | cons f fs ih =>
      obtain ⟨key, item⟩ := f
      intro out
      have hkey := hclean (key, item) (by simp)
      rw [isCleanKey, Bool.and_eq_true, decide_eq_true_eq, Bool.not_eq_true'] at hkey
      have hrest := ih fun f hf => hclean f (by simp [hf])
      rw [sanitizePublicFields, if_neg (by simp [hkey.1]), List.foldl_cons, publicField]
      by_cases h1 : key = js "metadata"
      · rw [if_pos h1, if_pos h1, hrest, h1]
      · rw [if_neg h1, if_neg h1]
        by_cases h2 : key = js "source_refs"
        · rw [if_pos (Or.inl h2), if_pos h2, hrest, h2]
        · rw [if_neg (fun h => h.elim h2 hkey.2), if_neg h2, hrest]
  rw [hfold, foldl_set_fields Prod.fst (fun f => publicField F f.1 f.2) fs [] (by simpa using hn), List.nil_append]

theorem get_metadata_sanitized (fs : List (JsString × Json)) : ∀ out : Json, (fs.map Prod.fst).Nodup →
    (sanitizePublicFields F out fs).get (js "metadata") =
      (((Json.obj fs).get (js "metadata")).map fun item => metadata F (some item)).or (out.get (js "metadata")) := by
  have hplain : isPlaintextLikeKey (js "metadata") = false := by decide
  induction fs with
  | nil =>
    intro out _
    rw [sanitizePublicFields]
    rfl
  | cons f fs ih =>
    obtain ⟨key, item⟩ := f
    intro out hn
    rw [List.map_cons, List.nodup_cons] at hn
    rw [sanitizePublicFields, get_obj_cons]
    split
    · rename_i h
      have hne : js "metadata" ≠ key := fun he => by rw [← he, hplain] at h; cases h
      rw [ih out hn.2, if_neg hne]
    · split
      · rename_i hkey
        have hnone : (Json.obj fs).get (js "metadata") = none := by
          rw [← hkey]
          exact List.lookup_eq_none_iff.2 fun p hp => bne_iff_ne.2 fun h => hn.1 (List.mem_map.2 ⟨p, hp, h.symm⟩)
        rw [ih _ hn.2, get_set, if_pos rfl, if_pos hkey.symm, hnone]
        rfl
      · rename_i hkey
        have hne : js "metadata" ≠ key := fun he => hkey he.symm
        rw [if_neg hne]
        split
        · rw [ih _ hn.2, get_set, if_neg (by simp)]
        · rw [ih _ hn.2, get_set, if_neg hne]

theorem get_refs_sanitized (fs : List (JsString × Json)) : ∀ out : Json, (sanitizePublicFields F out fs).get (js "source_refs") =
    ((lastRefs fs).map fun refs => .arr (sanitizeSourceRefs F publicPlaintextKeys (some refs))).or
      (out.get (js "source_refs")) := by
  have hplain : isPlaintextLikeKey (js "source_refs") = false := by decide
  have hplain' : isPlaintextLikeKey (js "sourceRefs") = false := by decide
  induction fs with
  | nil =>
    intro out
    rw [sanitizePublicFields]
    rfl
  | cons f fs ih =>
    obtain ⟨key, item⟩ := f
    intro out
    rw [sanitizePublicFields, lastRefs, isRefsKey]
    split
    · rename_i h
      have hne : ¬ (key = js "source_refs" ∨ key = js "sourceRefs") := by
        rintro (rfl | rfl)
        · rw [hplain] at h
          cases h
        · rw [hplain'] at h
          cases h
      simp only [decide_eq_false hne, Bool.false_eq_true, if_false, Option.or_none]
      exact ih out
    · split
      · rename_i hkey
        have hne : ¬ (key = js "source_refs" ∨ key = js "sourceRefs") := by
          rw [hkey]
          simp
        simp only [decide_eq_false hne, Bool.false_eq_true, if_false, Option.or_none]
        rw [ih, get_set, if_neg (by simp)]
      · split
        · rename_i hrefs
          simp only [decide_eq_true hrefs, if_true]
          rw [ih, get_set, if_pos rfl]
          cases lastRefs fs <;> rfl
        · rename_i hrefs
          simp only [decide_eq_false hrefs, Bool.false_eq_true, if_false, Option.or_none]
          rw [ih, get_set, if_neg (fun he => hrefs (Or.inl he.symm))]

theorem mem_obj_iff {fs : List (JsString × Json)} (hn : (fs.map Prod.fst).Nodup) {k : JsString} {x : Json} :
    (k, x) ∈ fs ↔ (Json.obj fs).get k = some x := by
  induction fs with
  | nil => simp
  | cons f fs ih =>
    obtain ⟨k', y⟩ := f
    rw [List.map_cons, List.nodup_cons] at hn
    rw [get_obj_cons, List.mem_cons, Prod.mk.injEq]
    split
    · rename_i hk
      subst hk
      have hnot : (k, x) ∉ fs := fun h => hn.1 (List.mem_map.2 ⟨(k, x), h, rfl⟩)
      simp [hnot, eq_comm]
    · rename_i hk
      simp [hk, ih hn.2]

theorem publicField_of_public {k : JsString} (hk : isPublicField k = true) (x : Json) : publicField F k x = sanitizePublicValue F x := by
  simp only [isPublicField, Bool.and_eq_true, decide_eq_true_eq, List.mem_cons, List.not_mem_nil, or_false, not_or] at hk
  rw [publicField, if_neg hk.2.1, if_neg hk.2.2.1]

theorem publicField_refs (refs : List Json) : publicField F (js "source_refs") (.arr refs) = .arr refs ↔
    refs.all settledRef = true := by
  rw [publicField, if_neg (by simp), if_pos rfl, Json.arr.injEq, sanitizeSourceRefs_eq_self]

/-- An object is sanitized once and for all when its fields are. -/
theorem sanitizePublicFields_twice_iff {fs : List (JsString × Json)} (hn : (fs.map Prod.fst).Nodup)
    (ih : ∀ f ∈ fs, isPublicField f.1 = true →
      (sanitizePublicValue F (sanitizePublicValue F f.2) = sanitizePublicValue F f.2 ↔ stable F f.2 = true)) :
    sanitizePublicValue F (sanitizePublicValue F (.obj fs)) = sanitizePublicValue F (.obj fs) ↔ stable F (.obj fs) = true := by
  obtain ⟨out, hout⟩ : ∃ out, sanitizePublicFields F (.obj []) fs = .obj out := by
    have hplain := isPlainRecord_sanitizePublicFields (F := F) fs (.obj []) rfl
    cases hs : sanitizePublicFields F (.obj []) fs with
    | obj out => exact ⟨out, rfl⟩
    | _ => rw [hs] at hplain; cases hplain
  have hnodup : (out.map Prod.fst).Nodup := by
    have h := nodup_sanitizePublicFields F fs (.obj []) List.nodup_nil
    rwa [hout] at h
  have hclean : ∀ f ∈ out, isCleanKey f.1 = true := by
    have h := sanitizePublicFields_clean (F := F) fs (.obj []) (by simp [Json.fields])
    rwa [hout] at h
  -- the fields of the sanitized object, by the kind of their key
  have hpublic : ∀ k, isPublicField k = true →
      (Json.obj out).get k = ((Json.obj fs).get k).map (sanitizePublicValue F) := by
    intro k hk
    rw [← hout, get_sanitizePublicFields hk fs _ hn]
    exact Option.or_none
  have hmeta : (Json.obj out).get (js "metadata") =
      ((Json.obj fs).get (js "metadata")).map fun item => metadata F (some item) := by
    rw [← hout, get_metadata_sanitized fs _ hn]
    exact Option.or_none
  have hrefs : (Json.obj out).get (js "source_refs") =
      (lastRefs fs).map fun refs => .arr (sanitizeSourceRefs F publicPlaintextKeys (some refs)) := by
    rw [← hout, get_refs_sanitized]
    exact Option.or_none
  have hself : sanitizePublicValue F (.obj out) = .obj out ↔ ∀ k x, (Json.obj out).get k = some x → publicField F k x = x := by
    rw [sanitizePublicValue, sanitizePublicFields_eq out hnodup hclean, Json.obj.injEq]
    constructor
    · intro h k x hkx
      have hmem := (mem_obj_iff hnodup).2 hkx
      have hmap : out.map (fun f => (f.1, publicField F f.1 f.2)) = out.map id := by rw [h, List.map_id]
      exact congrArg Prod.snd (List.map_inj_left.1 hmap (k, x) hmem)
    · intro h
      refine (List.map_congr_left fun f hf => ?_).trans (List.map_id out)
      obtain ⟨k, x⟩ := f
      exact congrArg (Prod.mk k) (h k x ((mem_obj_iff hnodup).1 hf))
  rw [sanitizePublicValue, hout, hself, stable, Bool.and_eq_true, stableFields_eq, List.all_eq_true]
  constructor
  · intro h
    refine ⟨fun f hf => ?_, ?_⟩
    · obtain ⟨k, item⟩ := f
      by_cases hk : isPublicField k = true
      · have hget := hpublic k hk
        rw [(mem_obj_iff hn).1 hf, Option.map_some] at hget
        have hfix := h k _ hget
        rw [publicField_of_public hk, ih (k, item) hf hk] at hfix
        simp [hfix]
      · simp [hk]
    · cases hlast : lastRefs fs with
      | none => rfl
      | some refs =>
        rw [hlast, Option.map_some] at hrefs
        rw [Option.all_some, ← settledRef_eq_refsOnce]
        exact publicField_refs _ |>.1 (h _ _ hrefs)
  · rintro ⟨hfields, hlast⟩ k x hget
    rcases isCleanKey_iff.1 (hclean _ ((mem_obj_iff hnodup).2 hget)) with hk | rfl | rfl
    · rw [hpublic k hk] at hget
      obtain ⟨item, hitem, rfl⟩ := Option.map_eq_some_iff.1 hget
      have hmem := (mem_obj_iff hn).2 hitem
      have hstable := hfields (k, item) hmem
      rw [hk] at hstable
      rw [publicField_of_public hk]
      exact (ih (k, item) hmem hk).2 (by simpa using hstable)
    · rw [hmeta] at hget
      obtain ⟨item, -, rfl⟩ := Option.map_eq_some_iff.1 hget
      rw [publicField, if_pos rfl, metadata_twice]
    · rw [hrefs] at hget
      obtain ⟨refs, hrefs', rfl⟩ := Option.map_eq_some_iff.1 hget
      rw [hrefs', Option.all_some, ← settledRef_eq_refsOnce] at hlast
      exact (publicField_refs _).2 hlast

/-- **Sanitizing twice is sanitizing once exactly for the stable values.** -/
theorem sanitize_twice_iff {j : Json} (hj : j.UniqueKeys) :
    sanitizePublicValue F (sanitizePublicValue F j) = sanitizePublicValue F j ↔ stable F j = true := by
  induction j using Json.ind with
  | hnull => simp [sanitizePublicValue, stable]
  | hbool b => simp [sanitizePublicValue, stable]
  | hnum q => simp [sanitizePublicValue, stable]
  | hstr s => simp [sanitizePublicValue, stable]
  | harr xs ih =>
    cases hj with
    | arr hxs =>
      rw [sanitizePublicValue, sanitizePublicValue, stable, stableItems_eq, Json.arr.injEq, sanitizePublicItems_eq,
        sanitizePublicItems_eq, List.map_map, List.map_inj_left, List.all_eq_true]
      exact forall₂_congr fun x hx => ih x hx (hxs x hx)
  | hobj fs ih =>
    cases hj with
    | obj hn hitems => exact sanitizePublicFields_twice_iff hn fun f hf _ => ih f hf (hitems f hf)

end EnigmaMemory
