import EnigmaMemory.Lib.Result
import EnigmaMemory.Proof.VisualContext
import Mathlib.Data.List.Infix

/-!
# Lines and pages of an encoded text

* `Laid`: lines that a text is laid out on, one after the other.
* `wrapAtoms_eq`: the lines of one source line are groups of its characters.
* `wrapping_lossless`: what is on the lines and the pages is the encoded text.
-/

namespace EnigmaMemory.VisualContext

/-! ## Lines of a text -/

/-- The lines lay out the text from an offset on; a line ends with the text, in the middle of it, or before a
newline. -/
inductive Laid : ℕ → JsString → List Line → Prop
  | last (offset : ℕ) (text : JsString) : Laid offset text [⟨text, offset, offset + text.length⟩]
  | broken {offset : ℕ} {text s : JsString} {lines : List Line} : Laid (offset + text.length) s lines →
      Laid offset (text ++ s) (⟨text, offset, offset + text.length⟩ :: lines)
  | newline {offset : ℕ} {text s : JsString} {lines : List Line} : Laid (offset + text.length + 1) s lines →
      Laid offset (text ++ 10 :: s) (⟨text, offset, offset + text.length⟩ :: lines)

/-- `encoded.slice(start, end)`. -/
def slice (encoded : JsString) (start stop : ℕ) : JsString := (encoded.drop start).take (stop - start)

/-- The second line goes on where the first ends, or behind the newline there. -/
def Follows (encoded : JsString) (line next : Line) : Prop :=
  next.start = line.stop ∨ (encoded[line.stop]? = some 10 ∧ next.start = line.stop + 1)

/-- The text of lines, with a newline for each unit between two of them. -/
def rebuild : ℕ → List Line → JsString
  | _, [] => []
  | offset, line :: lines => List.replicate (line.start - offset) 10 ++ line.text ++ rebuild line.stop lines

theorem Laid.ne_nil {offset : ℕ} {s : JsString} {lines : List Line} (h : Laid offset s lines) : lines ≠ [] := by
  cases h <;> simp

theorem Laid.start {offset : ℕ} {s : JsString} {lines : List Line} (h : Laid offset s lines) :
    ∃ line rest, lines = line :: rest ∧ line.start = offset := by
  cases h <;> exact ⟨_, _, rfl, rfl⟩

theorem Laid.rebuild_eq {offset : ℕ} {s : JsString} {lines : List Line} (h : Laid offset s lines) : rebuild offset lines = s := by
  induction h with
  | last offset text => simp [rebuild]
  | broken h ih => simp [rebuild, ih]
  | @newline offset text s lines h ih =>
    obtain ⟨line, rest, rfl, hstart⟩ := h.start
    rw [rebuild, hstart, Nat.sub_self, List.replicate_zero, List.nil_append] at ih
    simp [rebuild, hstart, ← ih]

theorem Laid.stop {offset : ℕ} {s : JsString} {lines : List Line} (h : Laid offset s lines) :
    lines.getLast?.map Line.stop = some (offset + s.length) := by
  induction h with
  | last offset text => rfl
  | broken h ih =>
    rw [List.getLast?_cons_of_ne_nil h.ne_nil, ih, List.length_append, Nat.add_assoc]
  | newline h ih =>
    rw [List.getLast?_cons_of_ne_nil h.ne_nil, ih, List.length_append, List.length_cons]
    congr 1
    omega

/-- Each line is a slice of what it is laid out from. -/
theorem Laid.slices {encoded : JsString} {offset : ℕ} {s : JsString} {lines : List Line} (h : Laid offset s lines)
    (hs : encoded.drop offset = s) :
    (∀ line ∈ lines, line.text = slice encoded line.start line.stop) ∧ lines.IsChain (Follows encoded) := by
  induction h with
  | last offset text =>
    rw [List.forall_mem_singleton]
    exact ⟨by simp [slice, hs], .singleton _⟩
  | @broken offset text s lines h ih =>
    have hrest : encoded.drop (offset + text.length) = s := by rw [← List.drop_drop, hs, List.drop_left]
    obtain ⟨hslices, hchain⟩ := ih hrest
    obtain ⟨line, rest, rfl, hstart⟩ := h.start
    rw [List.forall_mem_cons]
    exact ⟨⟨by simp [slice, hs], hslices⟩, List.isChain_cons_cons.2 ⟨.inl hstart, hchain⟩⟩
  | @newline offset text s lines h ih =>
    have hhere : encoded.drop (offset + text.length) = 10 :: s := by rw [← List.drop_drop, hs, List.drop_left]
    have hrest : encoded.drop (offset + text.length + 1) = s := by rw [← List.drop_drop, hhere, List.drop_one, List.tail_cons]
    obtain ⟨hslices, hchain⟩ := ih hrest
    obtain ⟨line, rest, rfl, hstart⟩ := h.start
    have hbreak : encoded[offset + text.length]? = some 10 := by
      rw [← List.head?_drop, hhere, List.head?_cons]
    rw [List.forall_mem_cons]
    exact ⟨⟨by simp [slice, hs], hslices⟩, List.isChain_cons_cons.2 ⟨.inr ⟨hbreak, hstart⟩, hchain⟩⟩

/-! ## Atoms -/

section

variable (font : Font)

/-- The cells that characters take when they are encoded. -/
def cellsOf (cs : List JsString) : ℕ := (cs.map fun ch => (codePoints (encodeCharacter font ch)).length).sum

/-- The atoms of encoded characters: one for each. -/
def atomsOf : ℕ → List JsString → List Atom
  | _, [] => []
  | index, ch :: cs =>
    let text := encodeCharacter font ch
    ⟨text, index, index + text.length, (codePoints text).length⟩ :: atomsOf (index + text.length) cs

end

variable {font : Font}

/-- An escape takes at most ten cells. -/
theorem cells_le {ch : JsString} (h : IsCharacter ch) : (codePoints (encodeCharacter font ch)).length ≤ 10 := by
  rcases encodeCharacter_cases font ch with ⟨-, henc⟩ | ⟨henc, -⟩ | ⟨hprintable, -⟩
  · rw [henc]
    decide
  · rw [henc, h.codePoints]
    simp
  · rw [hprintable.codePoints, List.length_map]
    have hlength := upperHex_length (codePointOf_lt h)
    unfold encodeCharacter
    simp only
    split_ifs with h₁ h₂ h₃ h₄ h₅
    · simp
    · simp
    · simp
    · simp
    · cases h <;> simp
    · simp only [List.length_append, List.length_cons, List.length_nil]
      omega

theorem atomsFrom_skip (rest : JsString) : ∀ (skipped : JsString) (index : ℕ),
    atomsFrom index skipped.length (skipped ++ rest) = atomsFrom (index + skipped.length) 0 rest
  | [], _ => rfl
  | c :: skipped, index => by
    rw [List.length_cons, List.cons_append, atomsFrom, atomsFrom_skip rest skipped, Nat.add_assoc, Nat.add_comm 1]

theorem atomsFrom_escape {index : ℕ} (body : JsString) {rest : JsString} (h : escapeLength (body ++ rest) = .ok body.length) :
    atomsFrom index 0 (92 :: (body ++ rest)) = (atomsFrom (index + (body.length + 1)) 0 rest).map
      (⟨92 :: body, index, index + (body.length + 1), (codePoints (92 :: body)).length⟩ :: ·) := by
  rw [atomsFrom, if_neg (by simp), h]
  simp only
  rw [atomsFrom_skip rest body, List.take_left, Nat.add_assoc, Nat.add_comm 1]

theorem atomsFrom_plain {index : ℕ} {ch rest : JsString} (h : IsCharacter ch) (hne : ch ≠ [92]) (happart : Apart ch rest) :
    atomsFrom index 0 (ch ++ rest) = (atomsFrom (index + ch.length) 0 rest).map (⟨ch, index, index + ch.length, 1⟩ :: ·) := by
  cases h with
  | unit c =>
    have hfirst : firstCharacter (c :: rest) = [c] := by
      cases rest with
      | nil => rfl
      | cons d rest =>
        rw [firstCharacter, if_neg]
        intro hpair
        rw [Bool.and_eq_true] at hpair
        exact happart ⟨⟨c, rfl, hpair.1⟩, d, rfl, hpair.2⟩
    rw [List.cons_append, List.nil_append, atomsFrom, if_pos fun hc => hne (by rw [hc])]
    simp only [hfirst]
    rfl
  | @pair hi lo hh hl =>
    have hhi : hi ≠ 92 := by
      rintro rfl
      exact absurd hh (by decide)
    have hfirst : firstCharacter (hi :: lo :: rest) = [hi, lo] := by
      rw [firstCharacter, hh, hl]
      rfl
    rw [List.cons_append, List.cons_append, List.nil_append, atomsFrom, if_pos hhi]
    simp only [hfirst]
    exact congrArg _ (atomsFrom_skip rest [lo] (index + 1))

theorem encoded_head {ch : JsString} {cs : List JsString} (h : Chunked (ch :: cs)) :
    Apart (encodeCharacter font ch) (cs.flatMap (encodeCharacter font)) := fun hboth =>
  h.head ⟨endsHigh_encodeCharacter font ch hboth.1, (codePoints_characters font h.tail).2 hboth.2⟩

/-- **The atoms of an encoded line** are its characters. -/
theorem atomsFrom_characters {cs : List JsString} (h : Chunked cs) (index : ℕ) :
    atomsFrom index 0 (cs.flatMap (encodeCharacter font)) = .ok (atomsOf font index cs) := by
  induction cs generalizing index with
  | nil => rfl
  | cons ch cs ih =>
    have hcut : Apart (encodeCharacter font ch) (cs.flatMap (encodeCharacter font)) := encoded_head h
    have hch := h.characters ch (by simp)
    rw [List.flatMap_cons, atomsOf]
    rcases encodeCharacter_cases font ch with ⟨-, henc⟩ | ⟨henc, -, hbackslash, -⟩ | ⟨-, body, henc, hlength⟩
    · rw [henc] at hcut ⊢
      rw [atomsFrom_plain (.unit 10) (by simp) hcut, ih h.tail]
      rfl
    · rw [henc] at hcut ⊢
      rw [atomsFrom_plain hch hbackslash hcut, ih h.tail, hch.codePoints]
      rfl
    · rw [henc, List.cons_append, atomsFrom_escape body (hlength _), ih h.tail]
      rfl

/-! ## Groups of characters -/

section

variable (font : Font)

/-- The lines of groups of characters, one after the other. -/
def groupLines : ℕ → List (List JsString) → List Line
  | _, [] => []
  | offset, group :: groups =>
    let text := group.flatMap (encodeCharacter font)
    ⟨text, offset, offset + text.length⟩ :: groupLines (offset + text.length) groups

end

/-- A line that has characters `cs` on it, and goes on with others. -/
theorem foldl_wrapAtom {columns offset : ℕ} (hcolumns : 10 ≤ columns) {cs : List JsString} (hcs : ∀ ch ∈ cs, IsCharacter ch)
    (index : ℕ) (w : Wrapping) (group : List JsString) (htext : w.text = group.flatMap (encodeCharacter font))
    (hcells : w.cells = cellsOf font group) (hfits : w.cells ≤ columns) (hstop : w.stop = w.start + w.text.length)
    (hindex : offset + index = w.stop) :
    ∃ groups, groups.flatten = group ++ cs ∧ groups ≠ [] ∧ (∀ g ∈ groups, cellsOf font g ≤ columns) ∧
      ((atomsOf font index cs).foldl (wrapAtom columns offset) w).push = w.wrapped ++ groupLines font w.start groups := by
  induction cs generalizing index w group with
  | nil =>
    refine ⟨[group], by simp, by simp, by simpa [← hcells] using hfits, ?_⟩
    simp [atomsOf, Wrapping.push, groupLines, htext, hstop]
  | cons ch cs ih =>
    obtain ⟨hch, hcs⟩ := List.forall_mem_cons.1 hcs
    have hatom : (codePoints (encodeCharacter font ch)).length ≤ 10 := cells_le hch
    rw [atomsOf, List.foldl_cons, wrapAtom]
    split
    · -- the line is full, and the character starts another one
      obtain ⟨groups, hflatten, -, hgroups, hlines⟩ := ih hcs (index + (encodeCharacter font ch).length)
        ⟨w.push, encodeCharacter font ch, (codePoints (encodeCharacter font ch)).length, offset + index,
          offset + (index + (encodeCharacter font ch).length)⟩ [ch] (by simp) (by simp [cellsOf])
        (hatom.trans hcolumns) (by simp [Nat.add_assoc]) rfl
      refine ⟨group :: groups, by rw [List.flatten_cons, hflatten, List.singleton_append], by simp,
        List.forall_mem_cons.2 ⟨hcells ▸ hfits, hgroups⟩, ?_⟩
      rw [hlines, groupLines, Wrapping.push, ← htext, ← hstop, ← hindex, List.append_assoc]
      rfl
    · -- the character goes on the line: alone, or because there is room
      rename_i hroom
      obtain ⟨groups, hflatten, hne, hgroups, hlines⟩ := ih hcs (index + (encodeCharacter font ch).length)
        { w with
          text := w.text ++ encodeCharacter font ch
          cells := w.cells + (codePoints (encodeCharacter font ch)).length
          stop := offset + (index + (encodeCharacter font ch).length) } (group ++ [ch]) (by simp [htext])
        (by simp [cellsOf, hcells]) (by simp only at hroom ⊢; omega) (by simp only [List.length_append]; omega) rfl
      exact ⟨groups, by rw [hflatten, List.append_assoc, List.singleton_append], hne, hgroups, hlines⟩

/-- **The lines of an encoded source line** are those of groups of its characters, each of which fits. -/
theorem wrapAtoms_eq {columns : ℕ} (hcolumns : 10 ≤ columns) (offset : ℕ) {cs : List JsString} (hcs : ∀ ch ∈ cs, IsCharacter ch) :
    ∃ groups, groups.flatten = cs ∧ groups ≠ [] ∧ (∀ g ∈ groups, cellsOf font g ≤ columns) ∧
      wrapAtoms columns offset (atomsOf font 0 cs) = groupLines font offset groups := by
  cases cs with
  | nil => exact ⟨[[]], rfl, by simp, by simp [cellsOf], rfl⟩
  | cons ch cs =>
    obtain ⟨groups, hflatten, hne, hgroups, hlines⟩ := foldl_wrapAtom hcolumns hcs 0 ⟨[], [], 0, offset, offset⟩ [] rfl rfl
      (Nat.zero_le _) rfl rfl
    exact ⟨groups, hflatten, hne, hgroups, hlines⟩

theorem laid_groupLines {groups : List (List JsString)} (hne : groups ≠ []) (offset : ℕ) :
    Laid offset (groups.flatten.flatMap (encodeCharacter font)) (groupLines font offset groups) ∧
      ∀ s lines, Laid (offset + (groups.flatten.flatMap (encodeCharacter font)).length + 1) s lines →
        Laid offset (groups.flatten.flatMap (encodeCharacter font) ++ 10 :: s) (groupLines font offset groups ++ lines) := by
  induction groups generalizing offset with
  | nil => exact absurd rfl hne
  | cons group groups ih =>
    cases groups with
    | nil =>
      simp only [List.flatten_cons, List.flatten_nil, List.append_nil, groupLines, List.singleton_append]
      exact ⟨.last offset _, fun s lines h => .newline h⟩
    | cons next groups =>
      obtain ⟨hlast, hmore⟩ := ih (by simp) (offset + (group.flatMap (encodeCharacter font)).length)
      rw [List.flatten_cons, List.flatMap_append]
      refine ⟨.broken hlast, fun s lines h => ?_⟩
      rw [List.append_assoc]
      refine .broken (hmore s lines ?_)
      rwa [List.length_append, ← Nat.add_assoc] at h

theorem mem_groupLines {groups : List (List JsString)} {offset : ℕ} {line : Line} (h : line ∈ groupLines font offset groups) :
    ∃ g ∈ groups, line.text = g.flatMap (encodeCharacter font) := by
  induction groups generalizing offset with
  | nil => cases h
  | cons group groups ih =>
    rw [groupLines] at h
    rcases List.mem_cons.1 h with rfl | h
    · exact ⟨group, by simp, rfl⟩
    · obtain ⟨g, hg, htext⟩ := ih h
      exact ⟨g, List.mem_cons_of_mem _ hg, htext⟩

/-! ## Source lines -/

theorem splitOn_append {α : Type} [BEq α] [LawfulBEq α] {a : α} {xs : List α} (h : a ∉ xs) (l : List α) :
    (xs ++ l).splitOn a = (l.splitOn a).modifyHead (xs ++ ·) := by
  induction xs with
  | nil =>
    obtain ⟨first, rest, hsplit⟩ := List.exists_cons_of_ne_nil (List.splitOn_ne_nil a l)
    rw [List.nil_append, hsplit]
    rfl
  | cons x xs ih =>
    rw [List.mem_cons, not_or] at h
    rw [List.cons_append, List.splitOn_cons_eq_if_modifyHead, if_neg (by simpa using Ne.symm h.1), ih h.2, List.modifyHead_modifyHead]
    rfl

/-- The parts that a list is split into: parts of the list without the element. -/
theorem splitOn_parts {α : Type} [BEq α] [LawfulBEq α] (a : α) (xs : List α) : ∃ first rest, xs.splitOn a = first :: rest ∧
    first <+: xs ∧ a ∉ first ∧ ∀ part ∈ rest, part <:+: xs ∧ a ∉ part := by
  induction xs with
  | nil => exact ⟨[], [], rfl, List.prefix_rfl, by simp, by simp⟩
  | cons x xs ih =>
    obtain ⟨first, rest, hsplit, hfirst, hnot, hrest⟩ := ih
    have hrest' : ∀ part ∈ rest, part <:+: x :: xs ∧ a ∉ part := fun part hpart =>
      ⟨List.infix_cons (hrest part hpart).1, (hrest part hpart).2⟩
    rw [List.splitOn_cons_eq_if_modifyHead, hsplit]
    by_cases hx : x = a
    · refine ⟨[], first :: rest, if_pos (by simpa using hx), List.nil_prefix, by simp, List.forall_mem_cons.2 ⟨?_, hrest'⟩⟩
      exact ⟨List.infix_cons (List.IsPrefix.isInfix hfirst), hnot⟩
    · refine ⟨x :: first, rest, if_neg (by simpa using hx), List.cons_prefix_cons.2 ⟨rfl, hfirst⟩, ?_, hrest'⟩
      rw [List.mem_cons, not_or]
      exact ⟨Ne.symm hx, hnot⟩

theorem newline_notMem {ch : JsString} (h : IsCharacter ch) (hne : ch ≠ [10]) : (10 : CodeUnit) ∉ encodeCharacter font ch := by
  rcases encodeCharacter_cases font ch with ⟨hch, -⟩ | ⟨henc, -⟩ | ⟨hprintable, -⟩
  · exact absurd hch hne
  · rw [henc]
    cases h with
    | unit c => simpa [eq_comm] using hne
    | @pair hi lo hh hl =>
      rw [isHighSurrogate_iff] at hh
      rw [isLowSurrogate_iff] at hl
      rintro hmem
      rcases List.mem_cons.1 hmem with rfl | hmem
      · exact absurd hh.1 (by decide)
      · rw [← List.mem_singleton.1 hmem] at hl
        exact absurd hl.1 (by decide)
  · exact fun hmem => absurd (hprintable 10 hmem).1 (by decide)

/-- The lines of an encoded text are those of the text. -/
theorem splitOn_characters {cs : List JsString} (h : ∀ ch ∈ cs, IsCharacter ch) :
    (cs.flatMap (encodeCharacter font)).splitOn 10 = (cs.splitOn [10]).map (·.flatMap (encodeCharacter font)) := by
  induction cs with
  | nil => rfl
  | cons ch cs ih =>
    obtain ⟨hch, hcs⟩ := List.forall_mem_cons.1 h
    rw [List.flatMap_cons, List.splitOn_cons_eq_if_modifyHead]
    by_cases hnewline : ch = [10]
    · have henc : encodeCharacter font ch = [10] := by rw [hnewline, encodeCharacter, if_pos rfl]
      rw [henc, if_pos (by simpa using hnewline), List.singleton_append, List.splitOn_cons_eq_if_modifyHead, if_pos (by simp), ih hcs]
      rfl
    · rw [if_neg (by simpa using hnewline), splitOn_append (newline_notMem hch hnewline), ih hcs]
      obtain ⟨first, rest, hsplit, -⟩ := splitOn_parts ([10] : JsString) cs
      rw [hsplit]
      rfl

/-! ## All lines -/

/-- What a line has on it: whole characters, no newline, and no more than fits. -/
structure GoodLine (font : Font) (columns : ℕ) (line : Line) : Prop where
  whole : ∃ source, line.text = encodeVisualContextText font source
  unbroken : (10 : CodeUnit) ∉ line.text
  fits : (codePoints line.text).length ≤ columns

theorem chunked_part {cs part : List JsString} (h : Chunked cs) (hpart : part <:+: cs) : Chunked part :=
  ⟨fun ch hch => h.characters ch (hpart.subset hch), List.IsChain.infix h.apart hpart⟩

theorem goodLine_of_group {columns : ℕ} {line : Line} {group : List JsString} (h : Chunked group) (hnewline : ([10] : JsString) ∉ group)
    (hfits : cellsOf font group ≤ columns) (htext : line.text = group.flatMap (encodeCharacter font)) : GoodLine font columns line where
  whole := ⟨group.flatten, by rw [htext, encodeVisualContextText, codePoints_flatten h]⟩
  unbroken := by
    rw [htext, List.mem_flatMap]
    rintro ⟨ch, hch, hmem⟩
    exact newline_notMem (h.characters ch hch) (fun hten => hnewline (hten ▸ hch)) hmem
  fits := by
    rw [htext, (codePoints_characters font h).1, List.length_flatMap]
    exact hfits

/-- **The lines of source lines**: they lay out the source lines, with a newline between each two. -/
theorem wrapLines_laid {columns : ℕ} (hcolumns : 10 ≤ columns) {parts : List (List JsString)} (hne : parts ≠ [])
    (hparts : ∀ part ∈ parts, Chunked part ∧ ([10] : JsString) ∉ part) (offset : ℕ) :
    ∃ lines, wrapLines columns offset (parts.map (·.flatMap (encodeCharacter font))) = .ok lines ∧
      Laid offset ([10].intercalate (parts.map (·.flatMap (encodeCharacter font)))) lines ∧ ∀ line ∈ lines, GoodLine font columns line := by
  induction parts generalizing offset with
  | nil => exact absurd rfl hne
  | cons part parts ih =>
    obtain ⟨⟨hchunked, hnewline⟩, hparts⟩ := List.forall_mem_cons.1 hparts
    obtain ⟨groups, hflatten, hgroups, hfits, hwrap⟩ := wrapAtoms_eq hcolumns offset hchunked.characters
    have hgood : ∀ line ∈ groupLines font offset groups, GoodLine font columns line := fun line hline => by
      obtain ⟨g, hg, htext⟩ := mem_groupLines hline
      have hpart : g <:+: part := hflatten ▸ List.infix_of_mem_flatten hg
      exact goodLine_of_group (chunked_part hchunked hpart) (fun hten => hnewline (hpart.subset hten)) (hfits g hg) htext
    obtain ⟨hlast, hmore⟩ := laid_groupLines hgroups offset
    rw [hflatten] at hlast hmore
    have hatoms : encodedAtoms (part.flatMap (encodeCharacter font)) = .ok (atomsOf font 0 part) := atomsFrom_characters hchunked 0
    rw [List.map_cons, wrapLines, hatoms]
    cases parts with
    | nil =>
      refine ⟨groupLines font offset groups, ?_, ?_, hgood⟩
      · rw [List.map_nil, wrapLines, ← hwrap]
        exact congrArg Except.ok (List.append_nil _)
      · rwa [List.map_nil, List.intercalate_singleton]
    | cons next parts =>
      obtain ⟨lines, hlines, hlaid, hgoods⟩ := ih (by simp) hparts (offset + (part.flatMap (encodeCharacter font)).length + 1)
      refine ⟨groupLines font offset groups ++ lines, ?_, ?_, ?_⟩
      · rw [hlines, ← hwrap]
        rfl
      · rw [List.map_cons, List.intercalate_cons_cons, List.append_assoc]
        exact hmore _ _ hlaid
      · exact fun line hline => (List.mem_append.1 hline).elim (hgood line) (hgoods line)

/-- What wrapping makes of an encoded text. -/
structure Wrapped (font : Font) (columns : ℕ) (encoded : JsString) (lines : List Line) : Prop where
  good : ∀ line ∈ lines, GoodLine font columns line
  slices : ∀ line ∈ lines, line.text = slice encoded line.start line.stop
  first : lines.head?.map Line.start = some 0
  last : lines.getLast?.map Line.stop = some encoded.length
  consecutive : lines.IsChain (Follows encoded)
  rebuilt : rebuild 0 lines = encoded

theorem wrapEncodedText_wrapped {columns : ℕ} (hcolumns : 10 ≤ columns) (text : JsString) :
    ∃ lines, wrapEncodedText (encodeVisualContextText font text) columns = .ok lines ∧ lines ≠ [] ∧
      Wrapped font columns (encodeVisualContextText font text) lines := by
  obtain ⟨-, hchunked⟩ := flatten_codePoints text
  obtain ⟨first, rest, hsplit, hfirst, hnot, hrest⟩ := splitOn_parts ([10] : JsString) (codePoints text)
  have hparts : ∀ part ∈ (codePoints text).splitOn [10], Chunked part ∧ ([10] : JsString) ∉ part := by
    rw [hsplit, List.forall_mem_cons]
    exact ⟨⟨chunked_part hchunked (List.IsPrefix.isInfix hfirst), hnot⟩, fun part hpart => ⟨chunked_part hchunked (hrest part hpart).1, (hrest part hpart).2⟩⟩
  obtain ⟨lines, hlines, hlaid, hgood⟩ := wrapLines_laid hcolumns (by rw [hsplit]; simp) hparts 0
  rw [← splitOn_characters hchunked.characters] at hlines hlaid
  rw [List.intercalate_splitOn] at hlaid
  obtain ⟨hslices, hchain⟩ := hlaid.slices rfl
  refine ⟨lines, hlines, hlaid.ne_nil, hgood, hslices, ?_, ?_, hchain, hlaid.rebuild_eq⟩
  · obtain ⟨line, rest, rfl, hstart⟩ := hlaid.start
    rw [List.head?_cons, Option.map_some, hstart]
  · rw [hlaid.stop, Nat.zero_add]
    rfl

/-! ## Pages -/

/-- The lines of a page, by the numbers that it gives. -/
def pageLines (lines : List Line) (page : Page) : List Line :=
  (lines.drop (page.content_line_start - 1)).take (page.content_line_end + 1 - page.content_line_start)

/-- What the pages of a carrier are to lines. -/
structure Paged (draw : Drawing) (lines : List Line) (carrier : Carrier) : Prop where
  rows : ∀ page ∈ carrier.pages, (pageLines lines page).length ≤ carrier.layout.content_rows_per_page
  partition : carrier.pages.flatMap (pageLines lines) = lines
  drawn : ∀ page ∈ carrier.pages, ∃ header, page.png = draw carrier.layout header ((pageLines lines page).map Line.text)
  starts : ∀ page ∈ carrier.pages, (pageLines lines page).head?.map Line.start = some page.encoded_character_start
  stops : ∀ page ∈ carrier.pages, (pageLines lines page).getLast?.map Line.stop = some page.encoded_character_end
  rebuilt : rebuild 0 (carrier.pages.flatMap (pageLines lines)) = carrier.encoded_text

/-- Slices of equal length, one after the other. -/
theorem flatMap_slices {α : Type} (l : List α) (rows : ℕ) : ∀ n : ℕ,
    (List.range n).flatMap (fun k => (l.drop (k * rows)).take rows) = l.take (n * rows)
  | 0 => by simp
  | n + 1 => by
    rw [List.range_succ, List.flatMap_append, flatMap_slices l rows n, List.flatMap_singleton, Nat.add_mul, Nat.one_mul, List.take_add]

section

variable {F : NumberFormat} {draw : Drawing} {layout : Layout} {sourceHash : JsString} {lines : List Line} {pageCount : ℕ}

theorem pageLines_createPage (k : ℕ) : pageLines lines (createPage F draw layout sourceHash lines pageCount k) =
    (lines.drop (k * layout.content_rows_per_page)).take layout.content_rows_per_page := by
  simp only [pageLines, createPage, Nat.add_sub_cancel]
  rw [show ∀ a b : ℕ, a + b + 1 - (a + 1) = b by omega, List.length_take]
  exact List.take_eq_take_iff.2 (by omega)

theorem mem_pages {carrier : Carrier}
    (hpages : carrier.pages = (List.range pageCount).map (createPage F draw layout sourceHash lines pageCount)) {page : Page}
    (h : page ∈ carrier.pages) : ∃ k < pageCount, page = createPage F draw layout sourceHash lines pageCount k := by
  rw [hpages] at h
  obtain ⟨k, hk, rfl⟩ := List.mem_map.1 h
  exact ⟨k, List.mem_range.1 hk, rfl⟩

end

/-- There are as many pages as it takes, and none is empty. -/
theorem pageCountOf_spec {n rows : ℕ} (hn : 0 < n) (hrows : 0 < rows) :
    n ≤ pageCountOf n rows * rows ∧ ∀ k < pageCountOf n rows, k * rows < n := by
  have hdiv := Nat.div_add_mod (n + rows - 1) rows
  have hmod := Nat.mod_lt (n + rows - 1) hrows
  rw [Nat.mul_comm] at hdiv
  have hle : (n + rows - 1) / rows ≤ pageCountOf n rows := Nat.le_max_right _ _
  refine ⟨?_, fun k hk => ?_⟩
  · have hmul := Nat.mul_le_mul_right rows hle
    omega
  · rw [pageCountOf, lt_max_iff] at hk
    rcases hk with hk | hk
    · rw [Nat.lt_one_iff.1 hk, Nat.zero_mul]
      exact hn
    · have hmul := Nat.mul_le_mul_right rows (Nat.succ_le_of_lt hk)
      rw [Nat.succ_mul] at hmul
      omega

theorem readLayout_rows {F : NumberFormat} {font : Font} {input : Json} {layout : Layout} {maxPages : ℕ} {pixelsPerToken : Option ℚ}
    (h : readLayout F font input = .ok (layout, maxPages, pixelsPerToken)) : 24 ≤ layout.columns ∧ 0 < layout.content_rows_per_page := by
  simp only [readLayout, Except.bind_eq_ok, Except.throw_if_eq_ok] at h
  obtain ⟨width, -, height, -, margin, -, lineRepeat, -, maxPages', -, palette, -, pixels, -, hsize, h⟩ := h
  obtain ⟨rfl, -⟩ := Prod.mk.inj (Except.ok.inj h)
  simp only [HEADER_ROWS] at hsize ⊢
  omega

theorem paged_of_pages {F : NumberFormat} {draw : Drawing} {sourceHash : JsString} {lines : List Line} {carrier : Carrier}
    (hpages : carrier.pages = (List.range (pageCountOf lines.length carrier.layout.content_rows_per_page)).map
      (createPage F draw carrier.layout sourceHash lines (pageCountOf lines.length carrier.layout.content_rows_per_page)))
    (hne : lines ≠ []) (hrows : 0 < carrier.layout.content_rows_per_page) (hrebuilt : rebuild 0 lines = carrier.encoded_text) :
    Paged draw lines carrier := by
  obtain ⟨hall, hfull⟩ := pageCountOf_spec (List.length_pos_iff.2 hne) hrows
  have hpartition : carrier.pages.flatMap (pageLines lines) = lines := by
    rw [hpages, List.flatMap_map, List.flatMap_congr fun k _ => pageLines_createPage k, flatMap_slices, List.take_of_length_le hall]
  have hcons : ∀ k < pageCountOf lines.length carrier.layout.content_rows_per_page, ∃ line rest,
      (lines.drop (k * carrier.layout.content_rows_per_page)).take carrier.layout.content_rows_per_page = line :: rest := fun k hk => by
    refine List.exists_cons_of_length_pos ?_
    have hline := hfull k hk
    rw [List.length_take, List.length_drop]
    omega
  refine ⟨fun page h => ?_, hpartition, fun page h => ?_, fun page h => ?_, fun page h => ?_, by rw [hpartition, hrebuilt]⟩
  all_goals
    obtain ⟨k, hk, rfl⟩ := mem_pages hpages h
    rw [pageLines_createPage]
  · exact List.length_take_le _ _
  · exact ⟨_, rfl⟩
  all_goals
    obtain ⟨line, rest, hlines⟩ := hcons k hk
    simp only [createPage, hlines]
    rfl

/-- **Wrapping and paging lose nothing.** The encoded text is wrapped into lines of whole characters that fit, each a
slice of it, one behind the other but for the newlines, and the pages divide the lines among them, in order. -/
theorem wrapping_lossless (F : NumberFormat) (font : Font) (draw : Drawing) {input : Json} {text : JsString} {layout : Layout}
    {maxPages : ℕ} {pixelsPerToken : Option ℚ} (htext : readText input = .ok text)
    (hlayout : readLayout F font input = .ok (layout, maxPages, pixelsPerToken)) :
    ∃ lines, wrapEncodedText (encodeVisualContextText font text) layout.columns = .ok lines ∧
      Wrapped font layout.columns (encodeVisualContextText font text) lines ∧
      ∀ carrier, createVisualContextCarrier F font draw input = .ok carrier →
        carrier.layout = layout ∧ carrier.encoded_text = encodeVisualContextText font text ∧ Paged draw lines carrier := by
  obtain ⟨hcolumns, hrows⟩ := readLayout_rows hlayout
  obtain ⟨lines, hlines, hne, hwrapped⟩ := wrapEncodedText_wrapped (by omega : 10 ≤ layout.columns) text
  refine ⟨lines, hlines, hwrapped, fun carrier hcarrier => ?_⟩
  simp only [createVisualContextCarrier, Except.bind_eq_ok, htext, hlayout, Except.throw_if_eq_ok] at hcarrier
  obtain ⟨text', htext', settings, hsettings, lines', hlines', -, hcarrier⟩ := hcarrier
  obtain rfl := Except.ok.inj htext'
  obtain rfl := Except.ok.inj hsettings
  obtain rfl := Except.ok.inj (hlines'.symm.trans hlines)
  obtain rfl := Except.ok.inj hcarrier
  exact ⟨rfl, rfl, paged_of_pages rfl hne hrows hwrapped.rebuilt⟩

/-- The layout that the code falls back on. -/
def fallbackLayout : Layout := ⟨1568, 1568, 4, 260, 156, 75, 2, js "row6"⟩

/-- A text of two lines. -/
def twoLines : Json := .obj [(js "text", .str (js "a\nb"))]

theorem readLayout_twoLines :
    readLayout decimalFormat asciiFont twoLines = .ok (fallbackLayout, 16, none) := by
  have hget : ∀ key, js "text" ≠ key → twoLines.get key = none := fun key hkey => by simp [twoLines, Ne.symm hkey]
  simp only [readLayout, Except.bind_eq_ok, Except.throw_if_eq_ok]
  refine ⟨1568, ?_, 1568, ?_, 4, ?_, 2, ?_, 16, ?_, js "row6", ?_, none, ?_, by decide, rfl⟩
  · simp [integerOption, hget]
  · simp [integerOption, hget]
  · simp [integerOption, hget]
  · simp [integerOption, hget, Json.orElse]
  · simp [integerOption, hget, Json.orElse]
  · simp [paletteOf, hget, Json.orElse]
  · simp [positiveNumberOption, hget, Json.orElse]

theorem twoLines_lossless :
    ∃ lines, wrapEncodedText (encodeVisualContextText asciiFont (js "a\nb")) fallbackLayout.columns = .ok lines ∧
      Wrapped asciiFont fallbackLayout.columns (encodeVisualContextText asciiFont (js "a\nb")) lines ∧
      ∀ carrier, createVisualContextCarrier decimalFormat asciiFont (fun _ _ _ => []) twoLines = .ok carrier →
        carrier.layout = fallbackLayout ∧ carrier.encoded_text = encodeVisualContextText asciiFont (js "a\nb") ∧
          Paged (fun _ _ _ => []) lines carrier := by
  have htext : readText twoLines = .ok (js "a\nb") := by simp [readText, twoLines]
  exact wrapping_lossless decimalFormat asciiFont (fun _ _ _ => []) htext readLayout_twoLines

end EnigmaMemory.VisualContext
