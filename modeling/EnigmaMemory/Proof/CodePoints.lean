import EnigmaMemory.Proof.Texts
import EnigmaMemory.Spec.VerifyPack
import Mathlib.Data.List.Chain

/-!
# Code points

A text is a list of code points, put together (`Chunked`): where it is cut between them, they add up
(`codePoints_append`), and so do those of what each is turned into (`codePoints_map`).
-/

namespace EnigmaMemory

def EndsHigh (s : JsString) : Prop := ∃ c, s.getLast? = some c ∧ isHighSurrogate c = true

def StartsLow (s : JsString) : Prop := ∃ c, s.head? = some c ∧ isLowSurrogate c = true

/-- Between the two a text may be cut without cutting a code point. -/
def Apart (a b : JsString) : Prop := ¬ (EndsHigh a ∧ StartsLow b)

/-- A code point as it stands in a text. -/
inductive IsCharacter : JsString → Prop
  | unit (c : CodeUnit) : IsCharacter [c]
  | pair {h l : CodeUnit} (hh : isHighSurrogate h = true) (hl : isLowSurrogate l = true) : IsCharacter [h, l]

theorem codePoints_pair {h l : CodeUnit} (hh : isHighSurrogate h = true) (hl : isLowSurrogate l = true) (rest : JsString) :
    codePoints (h :: l :: rest) = [h, l] :: codePoints rest := by
  rw [codePoints, hh, hl]
  rfl

theorem codePoints_unit {c : CodeUnit} {rest : JsString} (h : Apart [c] rest) : codePoints (c :: rest) = [c] :: codePoints rest := by
  cases rest with
  | nil => rfl
  | cons d rest =>
    rw [codePoints, if_neg]
    intro hpair
    rw [Bool.and_eq_true] at hpair
    exact h ⟨⟨c, rfl, hpair.1⟩, d, rfl, hpair.2⟩

/-- The code points of a text, one by one: a pair, or a unit that does not start one. -/
theorem codePoints_cases (s : JsString) : s = [] ∨ ∃ ch rest, s = ch ++ rest ∧ IsCharacter ch ∧ Apart ch rest ∧
    codePoints s = ch :: codePoints rest ∧ rest.length < s.length := by
  cases s with
  | nil => exact .inl rfl
  | cons c rest =>
    right
    by_cases h : Apart [c] rest
    · exact ⟨[c], rest, rfl, .unit c, h, codePoints_unit h, by simp⟩
    · obtain ⟨⟨c', hc', hhigh⟩, d, hd, hlow⟩ := not_not.1 h
      cases hc'
      cases rest with
      | nil => cases hd
      | cons d' rest =>
        cases hd
        refine ⟨[c, d], rest, rfl, .pair hhigh hlow, ?_, codePoints_pair hhigh hlow rest, by simp only [List.length_cons]; omega⟩
        rintro ⟨⟨e, he, hehigh⟩, -⟩
        obtain rfl : d = e := Option.some.inj he
        rw [isHighSurrogate_iff] at hehigh
        rw [isLowSurrogate_iff] at hlow
        omega

/-- The code points of a text and the cuts between them. -/
structure Chunked (cs : List JsString) : Prop where
  characters : ∀ ch ∈ cs, IsCharacter ch
  apart : cs.IsChain Apart

theorem IsCharacter.ne_nil {ch : JsString} (h : IsCharacter ch) : ch ≠ [] := by cases h <;> simp

theorem startsLow_append {a : JsString} (ha : a ≠ []) (b : JsString) : StartsLow (a ++ b) ↔ StartsLow a := by
  cases a with
  | nil => exact absurd rfl ha
  | cons c a => rfl

theorem not_startsLow_nil : ¬ StartsLow [] := fun ⟨_, h, _⟩ => nomatch h

theorem Chunked.tail {ch : JsString} {cs : List JsString} (h : Chunked (ch :: cs)) : Chunked cs :=
  ⟨fun x hx => h.characters x (List.mem_cons_of_mem ch hx), h.apart.tail⟩

theorem Chunked.head {ch : JsString} {cs : List JsString} (h : Chunked (ch :: cs)) : Apart ch cs.flatten := by
  cases cs with
  | nil => exact fun hboth => not_startsLow_nil hboth.2
  | cons d cs =>
    have hd := h.characters d (by simp)
    rw [Apart, List.flatten_cons, startsLow_append hd.ne_nil]
    exact (List.isChain_cons_cons.1 h.apart).1

theorem Chunked.cons {ch : JsString} {cs : List JsString} (hch : IsCharacter ch) (hcs : Chunked cs) (happart : Apart ch cs.flatten) :
    Chunked (ch :: cs) := by
  refine ⟨List.forall_mem_cons.2 ⟨hch, hcs.characters⟩, ?_⟩
  cases cs with
  | nil => exact .singleton _
  | cons d cs =>
    rw [Apart, List.flatten_cons, startsLow_append (hcs.characters d (by simp)).ne_nil] at happart
    exact List.isChain_cons_cons.2 ⟨happart, hcs.apart⟩

/-- The code points of a character that is followed by a text. -/
theorem codePoints_cons {ch rest : JsString} (h : IsCharacter ch) (happart : Apart ch rest) :
    codePoints (ch ++ rest) = ch :: codePoints rest := by
  cases h with
  | unit c => exact codePoints_unit happart
  | pair hh hl => exact codePoints_pair hh hl rest

theorem codePoints_flatten {cs : List JsString} (h : Chunked cs) : codePoints cs.flatten = cs := by
  induction cs with
  | nil => rfl
  | cons ch cs ih => rw [List.flatten_cons, codePoints_cons (h.characters ch (by simp)) h.head, ih h.tail]

theorem flatten_codePoints (s : JsString) : (codePoints s).flatten = s ∧ Chunked (codePoints s) := by
  induction hn : s.length using Nat.strong_induction_on generalizing s with
  | _ n ih =>
    rcases codePoints_cases s with rfl | ⟨ch, rest, hs, hch, happart, hpoints, hlength⟩
    · exact ⟨rfl, nofun, .nil⟩
    · obtain ⟨hflatten, hchunked⟩ := ih rest.length (hn ▸ hlength) rest rfl
      rw [hpoints, List.flatten_cons, hflatten]
      exact ⟨hs.symm, .cons hch hchunked (hflatten.symm ▸ happart)⟩

/-- Texts put together: where no cut is inside a code point, code points add up. -/
theorem codePoints_append {a b : JsString} (h : Apart a b) : codePoints (a ++ b) = codePoints a ++ codePoints b := by
  induction hn : a.length using Nat.strong_induction_on generalizing a with
  | _ n ih =>
    rcases codePoints_cases a with rfl | ⟨ch, rest, rfl, hch, happart, hpoints, hlength⟩
    · rfl
    · have hrest : Apart rest b := by
        rintro ⟨⟨c, hc, hhigh⟩, hlow⟩
        exact h ⟨⟨c, by rw [List.getLast?_append, hc, Option.some_or], hhigh⟩, hlow⟩
      have hcut : Apart ch (rest ++ b) := by
        cases rest with
        | nil => simpa using h
        | cons d rest =>
          rw [Apart, startsLow_append (List.cons_ne_nil d rest)]
          exact happart
      rw [hpoints, List.append_assoc, codePoints_cons hch hcut, ih rest.length (hn ▸ hlength) hrest rfl, List.cons_append]

/-- **Code points of what characters are turned into**, when that keeps the cuts between them. -/
theorem codePoints_map {f : JsString → JsString} (hne : ∀ ch, IsCharacter ch → f ch ≠ [])
    (hhigh : ∀ ch, IsCharacter ch → EndsHigh (f ch) → EndsHigh ch) (hlow : ∀ ch, IsCharacter ch → StartsLow (f ch) → StartsLow ch)
    {cs : List JsString} (h : Chunked cs) :
    codePoints (cs.flatMap f) = cs.flatMap (fun ch => codePoints (f ch)) ∧ (StartsLow (cs.flatMap f) → StartsLow cs.flatten) := by
  induction cs with
  | nil => exact ⟨rfl, fun h => h⟩
  | cons ch cs ih =>
    obtain ⟨hpoints, hstart⟩ := ih h.tail
    have hch := h.characters ch (by simp)
    have hcut : Apart (f ch) (cs.flatMap f) := fun hboth => h.head ⟨hhigh ch hch hboth.1, hstart hboth.2⟩
    refine ⟨?_, ?_⟩
    · rw [List.flatMap_cons, List.flatMap_cons, codePoints_append hcut, hpoints]
    · rw [List.flatMap_cons, List.flatten_cons, startsLow_append (hne ch hch), startsLow_append hch.ne_nil]
      exact hlow ch hch

theorem IsCharacter.codePoints {ch : JsString} (h : IsCharacter ch) : codePoints ch = [ch] := by
  rw [← List.append_nil ch, codePoints_cons h fun hboth => not_startsLow_nil hboth.2, List.append_nil]
  rfl

end EnigmaMemory
