import Mathlib.Data.Set.Function
import EnigmaMemory.Lib.Result
import EnigmaMemory.Spec.UserStore

/-!
# One file, one key

The file of an owner is named after the owner's name without the white space around it, the key is derived from the name
as it is.

* `one_file_one_key_iff`: owners with one file have one key exactly if names that differ only in white space around
  them, or not at all in UTF-8, are the same in UTF-8 and short enough for HKDF.
-/

namespace EnigmaMemory

namespace UserStore

variable {a b : JsString} {options : Options}

/-- The bytes that the key is derived from. -/
def deriveInfo (owner : JsString) : Bytes := utf8 (js "cortex-v3-user-dek:" ++ owner)

/-- The key of an owner's name, as bytes. -/
def dekOf (info : Bytes) : Bytes := Sha256.hkdf testMasterEntropy dekSalt info 32

/-- The digest that a file is named after. -/
def fileDigest (text : Bytes) : JsString := Sha256.hex (Sha256.digest text)

theorem ne_nil_of_file {file : JsString} (h : storeFileNameForOwner a = .ok file) : a ≠ [] := by
  rintro rfl
  cases h

theorem fileName_eq {file : JsString} (h : storeFileNameForOwner a = .ok file) : file = fileDigest (utf8 (trim a)) ++ js ".sqlite" := by
  simp only [storeFileNameForOwner] at h
  split at h
  · cases h
  · cases h
    rw [sha256Hex]
    rfl

/-- The texts before an owner's name are told apart by the name. -/
theorem utf8_label (owner : JsString) : deriveInfo owner = utf8 (js "cortex-v3-user-dek:") ++ utf8 owner := by
  rfl

theorem deriveDataEncryptionKey_buffer {entropy : Bytes} (h : entropy ≠ []) (passphrase : JsString) :
    deriveDataEncryptionKey (some (.buffer entropy)) passphrase =
      (hkdfSync entropy dekSalt (dekInfo passphrase) 32).map some := by
  cases entropy with
  | nil => exact absurd rfl h
  | cons c entropy => rfl

/-- The key that is derived without wallet entropy. -/
theorem deriveDekForOwner_eq (hentropy : options.getOwnerEntropy = none) (hne : a ≠ []) :
    deriveDekForOwner a options =
      if 1024 < (deriveInfo a).length then .error ⟨.rangeError, js "info is out of range"⟩ else .ok (some (dekOf (deriveInfo a))) := by
  have hnone : options.entropy a = none := by
    rw [Options.entropy, hentropy]
    rfl
  have hinfo : dekInfo a = deriveInfo a := by
    cases a with
    | nil => exact absurd rfl hne
    | cons c a => exact if_neg Bool.false_ne_true
  have hmaster : testMasterEntropy ≠ [] := List.cons_ne_nil _ _
  have hderive : deriveDekForOwner a options = deriveDataEncryptionKey (some (.buffer testMasterEntropy)) a := by
    unfold deriveDekForOwner
    rw [hnone]
  rw [hderive, deriveDataEncryptionKey_buffer hmaster, hkdfSync, hinfo]
  by_cases hlong : 1024 < (deriveInfo a).length
  · rw [if_pos hlong, if_pos hlong]
    rfl
  · rw [if_neg hlong, if_neg hlong]
    rfl

/-- Both names are given one key. -/
def SameKey (options : Options) (a b : JsString) : Prop :=
  ∃ key, deriveDekForOwner a options = .ok (some key) ∧ deriveDekForOwner b options = .ok (some key)

/-- Names with one key are the same in UTF-8 and short enough. -/
theorem sameKey_iff (hentropy : options.getOwnerEntropy = none) (ha : a ≠ []) (hb : b ≠ [])
    (hkdf : Set.InjOn dekOf {deriveInfo a, deriveInfo b}) :
    SameKey options a b ↔ utf8 a = utf8 b ∧ 19 + (utf8 a).length ≤ 1024 := by
  have hlength : ∀ owner, (deriveInfo owner).length = 19 + (utf8 owner).length := by
    intro owner
    rw [utf8_label, List.length_append]
    rfl
  rw [SameKey, deriveDekForOwner_eq hentropy ha, deriveDekForOwner_eq hentropy hb, hlength, hlength]
  constructor
  · rintro ⟨key, hka, hkb⟩
    split at hka
    · cases hka
    · split at hkb
      · cases hkb
      · rename_i hshort _
        have hsame : deriveInfo a = deriveInfo b := by
          refine hkdf (Set.mem_insert _ _) (Set.mem_insert_of_mem _ rfl) ?_
          rw [Option.some.inj (Except.ok.inj hka), Option.some.inj (Except.ok.inj hkb)]
        rw [utf8_label, utf8_label] at hsame
        exact ⟨List.append_cancel_left hsame, not_lt.1 hshort⟩
  · rintro ⟨hsame, hshort⟩
    have hinfo : deriveInfo a = deriveInfo b := by rw [utf8_label, utf8_label, hsame]
    rw [if_neg (not_lt.2 hshort), if_neg (not_lt.2 (hsame ▸ hshort)), hinfo]
    exact ⟨_, rfl, rfl⟩

/-- **Owners with one file have one key exactly if** names that are the same in UTF-8 without the white space around
them are the same with it, and short enough. -/
theorem one_file_one_key_iff (options : Options) (a b fileA fileB : JsString) (hentropy : options.getOwnerEntropy = none)
    (ha : storeFileNameForOwner a = .ok fileA) (hb : storeFileNameForOwner b = .ok fileB)
    (hsha : Set.InjOn fileDigest {utf8 (trim a), utf8 (trim b)}) (hkdf : Set.InjOn dekOf {deriveInfo a, deriveInfo b}) :
    (fileA = fileB → SameKey options a b) ↔
      (utf8 (trim a) = utf8 (trim b) → utf8 a = utf8 b ∧ 19 + (utf8 a).length ≤ 1024) := by
  have hfile : fileA = fileB ↔ utf8 (trim a) = utf8 (trim b) := by
    rw [fileName_eq ha, fileName_eq hb, List.append_left_inj]
    exact ⟨fun h => hsha (Set.mem_insert _ _) (Set.mem_insert_of_mem _ rfl) h, fun h => by rw [h]⟩
  rw [hfile, sameKey_iff hentropy (ne_nil_of_file ha) (ne_nil_of_file hb) hkdf]

/-! ## An owner with a space -/

def spacedOwner : JsString := js " alice"

def plainOwner : JsString := js "alice"

def noEntropy : Options := ⟨none, []⟩

theorem spaced_file : ∃ file, storeFileNameForOwner spacedOwner = .ok file ∧ storeFileNameForOwner plainOwner = .ok file :=
  ⟨_, rfl, rfl⟩

/-- The keys of the two spellings have been computed. -/
theorem spaced_keys : dekOf (deriveInfo spacedOwner) ≠ dekOf (deriveInfo plainOwner) := by
  decide +kernel

theorem injOn_pair {α β : Type} {f : α → β} {x y : α} (h : f x ≠ f y) : Set.InjOn f {x, y} := by
  rintro u (rfl | rfl) v (rfl | rfl) heq
  · rfl
  · exact absurd heq h
  · exact absurd heq.symm h
  · rfl

theorem one_file_one_key_iff_spaced : ∃ file : JsString, (file = file → SameKey noEntropy spacedOwner plainOwner) ↔
    (utf8 (trim spacedOwner) = utf8 (trim plainOwner) →
      utf8 spacedOwner = utf8 plainOwner ∧ 19 + (utf8 spacedOwner).length ≤ 1024) := by
  obtain ⟨file, hspaced, hplain⟩ := spaced_file
  have hsha : Set.InjOn fileDigest {utf8 (trim spacedOwner), utf8 (trim plainOwner)} := by
    have htrim : trim spacedOwner = trim plainOwner := by decide
    rw [htrim, Set.pair_eq_singleton]
    exact Set.injOn_singleton _ _
  exact ⟨file, one_file_one_key_iff noEntropy spacedOwner plainOwner file file rfl hspaced hplain hsha (injOn_pair spaced_keys)⟩

/-- A space before the name gives the same file another key. -/
theorem space_changes_key : ¬∀ a b file, storeFileNameForOwner a = .ok file → storeFileNameForOwner b = .ok file →
    SameKey noEntropy a b := by
  intro h
  obtain ⟨file, hspaced, hplain⟩ := spaced_file
  obtain ⟨hsame, -⟩ := (sameKey_iff rfl (ne_nil_of_file hspaced) (ne_nil_of_file hplain) (injOn_pair spaced_keys)).1
    (h spacedOwner plainOwner file hspaced hplain)
  exact absurd hsame (by decide)

end UserStore

end EnigmaMemory
