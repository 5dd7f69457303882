import Mathlib.Data.List.Infix
import Mathlib.Data.List.TakeWhile
import EnigmaMemory.Proof.EncryptedStore
import EnigmaMemory.Spec.Sanitize

/-!
# The search for a prefix

`search(prefix)` asks for the keys that are `LIKE` the prefix with a `%` behind it. `Spells` says what that means.

* `search_exact_iff`: the search finds the keys that start with the prefix, in every table, exactly if the prefix is
  plain: no `%`, no `_`, no ASCII letter, no NUL and no lone surrogate. In one table, it does exactly if every key that is
  spelled by the prefix starts with it.
-/

namespace EnigmaMemory

variable {V : Type}

/-! ## What a pattern spells -/

/-- The pattern spells the text: `%` any text, `_` a character, a letter itself in either case. -/
inductive Spells : JsString → JsString → Prop
  | done : Spells [] []
  | run {pattern text : JsString} (skipped : JsString) : Spells pattern text → Spells (37 :: pattern) (skipped ++ text)
  | pair {pattern text : JsString} {h l : CodeUnit} : isHighSurrogate h = true → isLowSurrogate l = true → Spells pattern text →
      Spells (95 :: pattern) (h :: l :: text)
  | unit {pattern text : JsString} {c : CodeUnit} :
      (∀ l rest, text = l :: rest → (isHighSurrogate c && isLowSurrogate l) = false) → Spells pattern text →
      Spells (95 :: pattern) (c :: text)
  | letter {pattern text : JsString} {c d : CodeUnit} : c ≠ 37 → c ≠ 95 → foldCase c = foldCase d → Spells pattern text →
      Spells (c :: pattern) (d :: text)

theorem like_run {pattern text : JsString} : like (37 :: pattern) text = true ↔ ∃ t u, t ++ u = text ∧ like pattern u = true := by
  have hany : like (37 :: pattern) text = text.tails.any (like pattern) := by
    rw [like.eq_def]
    exact if_pos rfl
  rw [hany, List.any_eq_true]
  constructor
  · rintro ⟨u, hu, h⟩
    obtain ⟨t, rfl⟩ := (List.mem_tails _ _).1 hu
    exact ⟨t, u, rfl, h⟩
  · rintro ⟨t, u, rfl, h⟩
    exact ⟨u, (List.mem_tails _ _).2 (List.suffix_append t u), h⟩

theorem like_letter {c : CodeUnit} (h : c ≠ 37) (h' : c ≠ 95) {pattern text : JsString} :
    like (c :: pattern) text = true ↔ ∃ d rest, text = d :: rest ∧ foldCase c = foldCase d ∧ like pattern rest = true := by
  rw [like.eq_def]
  simp only [if_neg h, if_neg h']
  cases text with
  | nil => simp
  | cons d rest => simp

/-- **`LIKE` finds what is spelled.** -/
theorem like_iff {pattern : JsString} : ∀ {text : JsString}, like pattern text = true ↔ Spells pattern text := by
  induction pattern with
  | nil =>
    intro text
    rw [like, List.isEmpty_iff]
    exact ⟨fun h => h ▸ .done, fun h => by cases h; rfl⟩
  | cons c pattern ih =>
    intro text
    by_cases hrun : c = 37
    · subst hrun
      rw [like_run]
      constructor
      · rintro ⟨t, u, rfl, h⟩
        exact .run t (ih.1 h)
      · intro h
        cases h with
        | run skipped h => exact ⟨skipped, _, rfl, ih.2 h⟩
        | letter hne => exact absurd rfl hne
    · by_cases hone : c = 95
      · subst hone
        constructor
        · intro h
          rw [like.eq_def] at h
          simp only [show (95 : CodeUnit) ≠ 37 by decide, if_true, if_false] at h
          split at h
          · rename_i a b rest
            split at h
            · rename_i hpair
              rw [Bool.and_eq_true] at hpair
              exact .pair hpair.1 hpair.2 (ih.1 h)
            · rename_i hpair
              refine .unit (fun l rest' heq => ?_) (ih.1 h)
              rw [← (List.cons.inj heq).1]
              exact eq_false_of_ne_true hpair
          · exact .unit (fun l rest heq => nomatch heq) (ih.1 h)
          · cases h
        · intro h
          rw [like.eq_def]
          simp only [show (95 : CodeUnit) ≠ 37 by decide, if_true, if_false]
          cases h with
          | pair hhigh hlow h =>
            simp only [hhigh, hlow, Bool.and_self, if_true]
            exact ih.2 h
          | @unit _ text a hsingle h =>
            cases text with
            | nil => exact ih.2 h
            | cons b rest =>
              simp only [hsingle b rest rfl, Bool.false_eq_true, if_false]
              exact ih.2 h
          | letter _ hne => exact absurd rfl hne
      · rw [like_letter hrun hone]
        constructor
        · rintro ⟨d, rest, rfl, hsame, h⟩
          exact .letter hrun hone hsame (ih.1 h)
        · intro h
          cases h with
          | run => exact absurd rfl hrun
          | pair | unit => exact absurd rfl hone
          | letter _ _ hsame h => exact ⟨_, _, rfl, hsame, ih.2 h⟩

/-! ## Plain patterns -/

def isLetter (c : CodeUnit) : Bool := isUpperUnit c || isLowerUnit c

/-- Nothing but a letter is the same in another case. -/
theorem eq_of_foldCase {c d : CodeUnit} (hc : isLetter c = false) (h : foldCase c = foldCase d) : c = d := by
  rw [isLetter, Bool.or_eq_false_iff, isUpperUnit, isLowerUnit, decide_eq_false_iff_not, decide_eq_false_iff_not] at hc
  obtain ⟨hupper, hlower⟩ := hc
  have hself : foldCase c = c := if_neg hupper
  rw [hself] at h
  unfold foldCase at h
  split at h
  · rename_i hd
    refine absurd ?_ hlower
    have hval : c.val = d.val + 32 := by
      rw [h, Fin.val_add]
      have hsmall : ((32 : CodeUnit) : ℕ) = 32 := rfl
      omega
    exact ⟨show 97 ≤ c.val by omega, show c.val ≤ 122 by omega⟩
  · exact h

theorem not_high_of_lt {c : CodeUnit} (h : c.val < 0xD800) : isHighSurrogate c = false :=
  decide_eq_false fun hc => absurd (show 0xD800 ≤ c.val from hc.1) (by omega)

/-- A character of the pattern lets one of the text pass. -/
def Lets (c d : CodeUnit) : Prop := c = 37 ∨ (c = 95 ∧ isHighSurrogate d = false) ∨ (c ≠ 37 ∧ c ≠ 95 ∧ foldCase c = foldCase d)

theorem lets_self (c : CodeUnit) : Lets c c := by
  by_cases hrun : c = 37
  · exact .inl hrun
  · by_cases hone : c = 95
    · exact .inr (.inl ⟨hone, hone ▸ by decide⟩)
    · exact .inr (.inr ⟨hrun, hone, rfl⟩)

/-- Texts of which each character passes are spelled. -/
theorem spells_of_lets {pattern text more rest : JsString} (h : List.Forall₂ Lets pattern text) (hmore : Spells more rest) :
    Spells (pattern ++ more) (text ++ rest) := by
  induction h with
  | nil => exact hmore
  | @cons c d pattern text hlets _ ih =>
    rcases hlets with rfl | ⟨rfl, hsingle⟩ | ⟨hrun, hone, hsame⟩
    · exact .run [d] ih
    · exact .unit (fun l tail _ => by rw [hsingle, Bool.false_and]) ih
    · exact .letter hrun hone hsame ih

theorem spells_any (text : JsString) : Spells (js "%") text := by
  have h := Spells.run text Spells.done
  rwa [List.append_nil] at h

theorem lets_refl (s : JsString) : List.Forall₂ Lets s s := List.forall₂_same.2 fun c _ => lets_self c

/-- What starts with the pattern is spelled by it. -/
theorem spells_prefix (s rest : JsString) : Spells (s ++ js "%") (s ++ rest) := spells_of_lets (lets_refl s) (spells_any rest)

theorem spells_self (s : JsString) : Spells s s := by
  have h := spells_of_lets (lets_refl s) Spells.done
  rwa [List.append_nil] at h

/-- A pattern of characters that are no wildcards and no letters spells itself only. -/
theorem prefix_of_spells {pattern : JsString} (hplain : ∀ c ∈ pattern, c ≠ 37 ∧ c ≠ 95 ∧ isLetter c = false) :
    ∀ {more text : JsString}, Spells (pattern ++ more) text → pattern <+: text := by
  induction pattern with
  | nil => exact fun _ => List.nil_prefix
  | cons c pattern ih =>
    intro more text h
    obtain ⟨⟨hrun, hone, hletter⟩, hrest⟩ := List.forall_mem_cons.1 hplain
    rw [List.cons_append] at h
    cases h with
    | run => exact absurd rfl hrun
    | pair | unit => exact absurd rfl hone
    | letter _ _ hsame h =>
      rw [eq_of_foldCase hletter hsame]
      exact (List.prefix_cons_inj _).2 (ih hrest h)

/-! ## Well-formed texts -/

theorem length_toWellFormed (s : JsString) : (toWellFormed s).length = s.length := by
  induction s using toWellFormed.induct with
  | case1 c d rest hpair ih => simp [toWellFormed, hpair, ih]
  | case2 c d rest hpair ih => simp [toWellFormed, hpair, ih]
  | case3 c => rfl
  | case4 => rfl

/-- A text is taken apart at a character that is no surrogate. -/
theorem toWellFormed_split {c : CodeUnit} (hc : isSurrogate c = false) (b : JsString) : ∀ a : JsString,
    toWellFormed (a ++ c :: b) = toWellFormed a ++ c :: toWellFormed b := by
  intro a
  have hlow : isLowSurrogate c = false := (Bool.or_eq_false_iff.1 hc).2
  induction a using toWellFormed.induct with
  | case1 x y rest hpair ih => simp [toWellFormed, hpair, ih]
  | case2 x y rest hpair ih =>
    rw [List.cons_append] at ih
    simp [toWellFormed, hpair, ih]
  | case3 x =>
    rw [List.cons_append, List.nil_append, toWellFormed, hlow, Bool.and_false, if_neg Bool.false_ne_true, toWellFormed_cons hc,
      toWellFormed]
    rfl
  | case4 => exact toWellFormed_cons hc b

/-- The parts of a well-formed text are well-formed. -/
theorem wellFormed_parts {a b : JsString} {c : CodeUnit} (hc : isSurrogate c = false) (h : toWellFormed (a ++ c :: b) = a ++ c :: b) :
    toWellFormed a = a ∧ toWellFormed b = b := by
  rw [toWellFormed_split hc] at h
  obtain ⟨ha, hb⟩ := List.append_inj h (length_toWellFormed a)
  exact ⟨ha, (List.cons.inj hb).2⟩

theorem toWellFormed_idem (s : JsString) : toWellFormed (toWellFormed s) = toWellFormed s := by
  have hreplaced : ∀ c : CodeUnit, isSurrogate (if isSurrogate c then 0xFFFD else c) = false := by
    intro c
    split
    · decide
    · rename_i h
      exact eq_false_of_ne_true h
  induction s using toWellFormed.induct with
  | case1 c d rest hpair ih => simp [toWellFormed, hpair, ih]
  | case2 c d rest hpair ih =>
    rw [toWellFormed, if_neg hpair, toWellFormed_cons (hreplaced c), ih]
  | case3 c =>
    rw [toWellFormed, toWellFormed_cons (hreplaced c), toWellFormed]
  | case4 => rfl

theorem toWellFormed_percent (s : JsString) : toWellFormed (s ++ js "%") = toWellFormed s ++ js "%" :=
  toWellFormed_split (by decide) [] s

/-! ## Texts up to their first NUL -/

theorem upToNul_append_of_notMem {s : JsString} (h : (0 : CodeUnit) ∉ s) (t : JsString) : upToNul (s ++ t) = s ++ upToNul t := by
  have hall : ∀ c ∈ s, decide (c ≠ 0) = true := fun c hc => decide_eq_true fun h0 : c = 0 => h (h0 ▸ hc)
  rw [upToNul, upToNul, List.takeWhile_append_of_pos hall]

theorem upToNul_of_notMem {s : JsString} (h : (0 : CodeUnit) ∉ s) : upToNul s = s := by
  have happend := upToNul_append_of_notMem h []
  rwa [List.append_nil, show upToNul [] = [] from rfl, List.append_nil] at happend

theorem upToNul_append {s : JsString} (h : (0 : CodeUnit) ∈ s) (t : JsString) : upToNul (s ++ t) = upToNul s := by
  induction s with
  | nil => exact absurd h List.not_mem_nil
  | cons c s ih =>
    rw [List.cons_append, upToNul, upToNul, List.takeWhile_cons, List.takeWhile_cons]
    by_cases hc : c = 0
    · rw [hc]
      rfl
    · have hmem : (0 : CodeUnit) ∈ s := (List.mem_cons.1 h).resolve_left (Ne.symm hc)
      rw [if_pos (decide_eq_true hc), if_pos (decide_eq_true hc)]
      exact congrArg (c :: ·) (ih hmem)

theorem upToNul_start (s : JsString) : upToNul s <+: s := List.takeWhile_prefix _

/-! ## The search -/

namespace EncryptedStore

variable {s : EncryptedStore V} {p : JsString}

/-- What SQLite is asked for. -/
def pattern (p : JsString) : JsString := upToNul (toWellFormed (p ++ js "%"))

/-- The keys of the table are texts. -/
def Stored (s : EncryptedStore V) : Prop := ∀ key ∈ s.records.keys, toWellFormed key = key

/-- **The search is exact**: it finds the records whose key starts with the prefix, each once and with its value. -/
structure Exact (s : EncryptedStore V) (p : JsString) : Prop where
  found : ∀ key value, (key, value) ∈ s.search p ↔ s.records.get key = some value ∧ p <+: key
  once : ((s.search p).map Prod.fst).Nodup

theorem exact_iff : Exact s p ↔ ∀ key ∈ s.records.keys, Spells (pattern p) (upToNul key) ↔ p <+: key := by
  have hmem : ∀ key value, (key, value) ∈ s.search p ↔ s.records.get key = some value ∧ Spells (pattern p) (upToNul key) := by
    intro key value
    rw [search, List.mem_filter, like_iff, OrdMap.get_eq_some_iff]
    rfl
  constructor
  · intro h key hkey
    obtain ⟨value, hvalue⟩ := OrdMap.has_eq_true.1 (OrdMap.mem_keys.1 hkey)
    have hfound := h.found key value
    rw [hmem] at hfound
    exact ⟨fun hs => (hfound.1 ⟨hvalue, hs⟩).2, fun hp => (hfound.2 ⟨hvalue, hp⟩).2⟩
  · intro h
    refine ⟨fun key value => ?_, (List.filter_sublist.map Prod.fst).nodup s.records.nodup⟩
    rw [hmem]
    refine and_congr_right fun hvalue => h key (OrdMap.mem_keys.2 (OrdMap.has_eq_true.2 ⟨value, hvalue⟩))

/-- Keys that start with a well-formed prefix are found. -/
theorem spells_of_prefix (hp : toWellFormed p = p) {key : JsString} (h : p <+: key) : Spells (pattern p) (upToNul key) := by
  obtain ⟨rest, rfl⟩ := h
  rw [pattern, toWellFormed_percent, hp]
  by_cases hnul : (0 : CodeUnit) ∈ p
  · rw [upToNul_append hnul, upToNul_append hnul]
    exact spells_self _
  · rw [upToNul_append_of_notMem hnul, upToNul_append_of_notMem hnul]
    exact spells_prefix p (upToNul rest)

/-- **A plain prefix**: well-formed, and without NUL, wildcards and letters. -/
structure Plain (p : JsString) : Prop where
  wellFormed : toWellFormed p = p
  plain : ∀ c ∈ p, c ≠ 0 ∧ c ≠ 37 ∧ c ≠ 95 ∧ isLetter c = false

theorem Plain.exact (hp : Plain p) (s : EncryptedStore V) : Exact s p := by
  refine exact_iff.2 fun key _ => ⟨fun h => ?_, spells_of_prefix hp.wellFormed⟩
  have hnul : (0 : CodeUnit) ∉ p := fun h0 => (hp.plain 0 h0).1 rfl
  rw [pattern, toWellFormed_percent, hp.wellFormed, upToNul_append_of_notMem hnul] at h
  exact (prefix_of_spells (fun c hc => (hp.plain c hc).2) h).trans (upToNul_start key)

/-- The table with one record. -/
def single (key : JsString) : EncryptedStore V := ⟨OrdMap.empty.set key .null, .empty⟩

theorem keys_single (key : JsString) : (single key : EncryptedStore V).records.keys = [key] := rfl

/-- A key that is found although it does not start with the prefix. -/
theorem not_exact_single {key : JsString} (hspells : Spells (pattern p) (upToNul key)) (hno : ¬ p <+: key) :
    ¬ Exact (single key : EncryptedStore V) p := by
  intro h
  exact hno ((exact_iff.1 h key (by rw [keys_single]; exact List.mem_singleton_self key)).1 hspells)

/-- Another character that the first one lets pass. -/
def other (c : CodeUnit) : CodeUnit := if c = 37 then 38 else if c = 95 then 120 else if isUpperUnit c then c + 32 else c - 32

theorem other_spec {c : CodeUnit} (h : c = 37 ∨ c = 95 ∨ isLetter c = true) :
    Lets c (other c) ∧ other c ≠ c ∧ other c ≠ 0 ∧ isSurrogate c = false ∧ isSurrogate (other c) = false := by
  rcases h with rfl | rfl | hletter
  · exact ⟨.inl rfl, by decide, by decide, by decide, by decide⟩
  · exact ⟨.inr (.inl ⟨rfl, by decide⟩), by decide, by decide, by decide, by decide⟩
  · have hall : ∀ n : Fin 123, isLetter (Fin.castLE (by decide) n) = true →
        let c : CodeUnit := Fin.castLE (by decide) n
        (c ≠ 37 ∧ c ≠ 95 ∧ foldCase c = foldCase (other c)) ∧ other c ≠ c ∧ other c ≠ 0 ∧ isSurrogate c = false ∧
          isSurrogate (other c) = false := by
      decide
    have hlt : c.val < 123 := by
      rw [isLetter, Bool.or_eq_true, isUpperUnit, isLowerUnit, decide_eq_true_eq, decide_eq_true_eq] at hletter
      rcases hletter with ⟨-, hle⟩ | ⟨-, hle⟩
      · exact lt_of_le_of_lt (show c.val ≤ 90 from hle) (by decide)
      · exact lt_of_le_of_lt (show c.val ≤ 122 from hle) (by decide)
    obtain ⟨hlets, hrest⟩ := hall ⟨c.val, hlt⟩ hletter
    exact ⟨.inr (.inr hlets), hrest⟩

/-- **Every other prefix finds a key that does not start with it.** -/
theorem exists_not_exact (hp : ¬ Plain p) : ∃ s : EncryptedStore V, Stored s ∧ ¬ Exact s p := by
  have hstored : ∀ {key : JsString}, toWellFormed key = key → Stored (single key : EncryptedStore V) := by
    intro key hkey k hk
    rw [keys_single, List.mem_singleton] at hk
    rw [hk, hkey]
  by_cases hwell : toWellFormed p = p
  · by_cases hnul : (0 : CodeUnit) ∈ p
    · -- the pattern ends at the NUL
      obtain ⟨a, b, rfl, ha⟩ := List.eq_append_cons_of_mem hnul
      have hread : ∀ t, upToNul (a ++ 0 :: t) = a := fun t => by
        rw [upToNul_append_of_notMem ha]
        exact List.append_nil a
      refine ⟨single a, hstored (wellFormed_parts (by decide) hwell).1, not_exact_single ?_ fun hfront => ?_⟩
      · rw [pattern, toWellFormed_percent, hwell, List.append_assoc, List.cons_append, hread, upToNul_of_notMem ha]
        exact spells_self a
      · have hlength := hfront.length_le
        rw [List.length_append, List.length_cons] at hlength
        omega
    · obtain ⟨c, hc, hwild⟩ : ∃ c ∈ p, c = 37 ∨ c = 95 ∨ isLetter c = true := by
        by_contra hno
        push Not at hno
        exact hp ⟨hwell, fun c hc => ⟨fun h0 => hnul (h0 ▸ hc), (hno c hc).1, (hno c hc).2.1, eq_false_of_ne_true (hno c hc).2.2⟩⟩
      obtain ⟨a, b, rfl⟩ := List.append_of_mem hc
      obtain ⟨hlets, hne, hzero, hsurrogate, hsurrogate'⟩ := other_spec hwild
      obtain ⟨ha, hb⟩ := wellFormed_parts hsurrogate hwell
      have hnul' : (0 : CodeUnit) ∉ a ++ other c :: b := by
        simp only [List.mem_append, List.mem_cons, not_or] at hnul ⊢
        exact ⟨hnul.1, Ne.symm hzero, hnul.2.2⟩
      have hkey : toWellFormed (a ++ other c :: b) = a ++ other c :: b := by rw [toWellFormed_split hsurrogate', ha, hb]
      have hspells : Spells ((a ++ c :: b) ++ js "%") ((a ++ other c :: b) ++ []) :=
        spells_of_lets (List.rel_append (lets_refl a) (.cons hlets (lets_refl b))) (spells_any [])
      refine ⟨single (a ++ other c :: b), hstored hkey, not_exact_single ?_ fun hfront => hne ?_⟩
      · rw [List.append_nil] at hspells
        rw [pattern, toWellFormed_percent, hwell, upToNul_append_of_notMem hnul, upToNul_of_notMem hnul']
        exact hspells
      · have heq := hfront.eq_of_length (by simp)
        exact ((List.cons.inj (List.append_cancel_left heq)).1).symm
  · -- a lone surrogate is stored as another character
    have hpattern : pattern p = pattern (toWellFormed p) := by
      rw [pattern, pattern, toWellFormed_percent, toWellFormed_percent, toWellFormed_idem]
    refine ⟨single (toWellFormed p), hstored (toWellFormed_idem p), not_exact_single ?_ fun hfront => hwell ?_⟩
    · rw [hpattern]
      exact spells_of_prefix (toWellFormed_idem p) (List.prefix_refl _)
    · exact (hfront.eq_of_length (length_toWellFormed p).symm).symm

/-- **The search is exact in every table exactly for plain prefixes.** A well-formed prefix is searched for exactly in a
table if and only if every key that it spells with a `%` behind it starts with it. -/
theorem search_exact_iff (p : JsString) :
    ((∀ s : EncryptedStore V, Stored s → Exact s p) ↔ Plain p) ∧
      (toWellFormed p = p → ∀ s : EncryptedStore V, Stored s →
        (Exact s p ↔ ∀ key ∈ s.records.keys, Spells (pattern p) (upToNul key) → p <+: key)) := by
  refine ⟨⟨fun h => ?_, fun hp s _ => hp.exact s⟩, fun hwell s _ => ?_⟩
  · by_contra hp
    obtain ⟨s, hs, hno⟩ := exists_not_exact (V := V) hp
    exact hno (h s hs)
  · rw [exact_iff]
    exact forall₂_congr fun key _ => ⟨fun h => h.1, fun h => ⟨h, spells_of_prefix hwell⟩⟩

/-- A table with one key, and two prefixes. -/
theorem search_exact_iff_digits : Exact (single (js "2:7") : EncryptedStore Unit) (js "2:") ∧
    (Exact (single (js "2:7") : EncryptedStore Unit) (js "_:") ↔
      ∀ key ∈ [js "2:7"], Spells (pattern (js "_:")) (upToNul key) → js "_:" <+: key) := by
  have hstored : Stored (single (js "2:7") : EncryptedStore Unit) := by
    intro key hkey
    rw [keys_single, List.mem_singleton] at hkey
    rw [hkey]
    decide
  have hall : (js "2:").all (fun c => decide (c ≠ 0 ∧ c ≠ 37 ∧ c ≠ 95 ∧ isLetter c = false)) = true := by decide
  have hplain : Plain (js "2:") := ⟨by decide, fun c hc => of_decide_eq_true (List.all_eq_true.1 hall c hc)⟩
  exact ⟨(search_exact_iff (js "2:")).1.2 hplain _ hstored, (search_exact_iff (js "_:")).2 (by decide) _ hstored⟩

/-- The prefix of one owner finds a record of another. -/
theorem search_other_case : ¬ ∀ (s : EncryptedStore Unit) (p : JsString), Stored s → Exact s p := by
  intro h
  have hstored : Stored (single (js "memory:alice:1") : EncryptedStore Unit) := by
    intro key hkey
    rw [keys_single, List.mem_singleton] at hkey
    rw [hkey]
    decide +kernel
  have hfound := ((h _ (js "memory:Alice:") hstored).found (js "memory:alice:1") .null).1
  have hmem : (js "memory:alice:1", Json.null) ∈ (single (js "memory:alice:1") : EncryptedStore Unit).search (js "memory:Alice:") := by
    refine List.mem_filter.2 ⟨List.mem_singleton_self _, ?_⟩
    decide +kernel
  exact absurd (hfound hmem).2 (by decide)

end EncryptedStore

end EnigmaMemory
