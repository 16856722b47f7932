import Mathlib
import TickWorld.Simulation.Basic

namespace TickWorld.Console

open Text (isBlank trim)

def encode (text : List Char) : List UInt8 := text.flatMap String.utf8EncodeChar

def IsText (line : List UInt8) : Prop := ∃ text, encode text = line

def SpellsQuit (word : List Char) : Prop :=
  List.Forall₂ (fun c letter => c = letter ∨ c = letter.toUpper) word ['q', 'u', 'i', 't']

/-- Nothing but blanks surrounds the word "quit". -/
def ReadsQuit (text : List Char) : Prop :=
  ∃ before word after, text = before ++ word ++ after ∧ SpellsQuit word ∧
    (∀ c ∈ before, isBlank c = true) ∧ ∀ c ∈ after, isBlank c = true

def Quits (line : List UInt8) : Prop := ∃ text, encode text = line ∧ ReadsQuit text

/-- What newline bytes divide; after the last of them there is a line only if something is there. -/
def lines (bytes : List UInt8) : List (List UInt8) :=
  let parts := bytes.splitOn 0x0A
  if parts.getLast? = some [] then parts.dropLast else parts

/-- A line quits, and all lines before it can be read. -/
def Accepts (ls : List (List UInt8)) : Prop :=
  ∃ earlier line later, ls = earlier ++ line :: later ∧ Quits line ∧ ∀ l ∈ earlier, IsText l

variable {c letter : Char} {text word before after : List Char} {line rest bytes : List UInt8}
  {ls : List (List UInt8)}

theorem toLower_eq_iff (hl : letter.isLower = true) :
    c.toLower = letter ↔ c = letter ∨ c = letter.toUpper := by
  have ha : 'a'.val.toNat = 97 := rfl
  have hz : 'z'.val.toNat = 122 := rfl
  have hA : 'A'.val.toNat = 65 := rfl
  have hZ : 'Z'.val.toNat = 90 := rfl
  have hlower : ('a'.val - 'A'.val).toNat = 32 := rfl
  have hraise : ('A'.val - 'a'.val).toNat = 2 ^ 32 - 32 := rfl
  simp only [Char.isLower, Bool.and_eq_true, decide_eq_true_eq, ge_iff_le, UInt32.le_iff_toNat_le,
    ha, hz] at hl
  have hupper : letter.toUpper.val.toNat = letter.val.toNat - 32 := by
    rw [Char.toUpper, dif_pos (by simpa only [UInt32.le_iff_toNat_le, ha, hz] using hl)]
    simp only [UInt32.toNat_add, hraise]
    omega
  simp only [Char.toLower, Char.ext_iff, ← UInt32.toNat_inj, hupper]
  split
  · rename_i hc
    simp only [ge_iff_le, UInt32.le_iff_toNat_le, hA, hZ] at hc
    simp only [UInt32.toNat_add, hlower]
    omega
  · rename_i hc
    simp only [ge_iff_le, UInt32.le_iff_toNat_le, hA, hZ] at hc
    omega

theorem spellsQuit_iff : SpellsQuit word ↔ word.map Char.toLower = "quit".toList := by
  have hq : "quit".toList = ['q', 'u', 'i', 't'] := by decide
  rw [hq, ← List.forall₂_eq_eq_eq, List.forall₂_map_left_iff]
  simp only [SpellsQuit, List.forall₂_cons_right_iff, List.forall₂_nil_right_iff]
  simp (disch := decide) only [toLower_eq_iff]

theorem SpellsQuit.ends (h : SpellsQuit word) :
    ∃ first mid last, word = first :: mid ++ [last] ∧ isBlank first = false ∧
      isBlank last = false := by
  have hend {c letter : Char} (hc : c = letter ∨ c = letter.toUpper)
      (hl : isBlank letter = false) (hu : isBlank letter.toUpper = false) : isBlank c = false := by
    rcases hc with rfl | rfl
    · exact hl
    · exact hu
  rcases h with _ | ⟨hfirst, _ | ⟨-, _ | ⟨-, _ | ⟨hlast, ⟨⟩⟩⟩⟩⟩
  exact ⟨_, [_, _], _, rfl, hend hfirst (by decide) (by decide),
    hend hlast (by decide) (by decide)⟩

theorem exists_trim (text : List Char) : ∃ before after, text = before ++ trim text ++ after ∧
    (∀ c ∈ before, isBlank c = true) ∧ ∀ c ∈ after, isBlank c = true := by
  refine ⟨text.takeWhile isBlank, ((text.dropWhile isBlank).reverse.takeWhile isBlank).reverse,
    ?_, fun c hc => List.mem_takeWhile_imp hc, fun c hc => ?_⟩
  · have hdrop := congrArg List.reverse
      (List.takeWhile_append_dropWhile (p := isBlank) (l := (text.dropWhile isBlank).reverse))
    rw [List.reverse_append, List.reverse_reverse] at hdrop
    rw [trim, List.append_assoc, hdrop, List.takeWhile_append_dropWhile]
  · exact List.mem_takeWhile_imp (List.mem_reverse.mp hc)

theorem SpellsQuit.trim (h : SpellsQuit word) (hb : ∀ c ∈ before, isBlank c = true)
    (ha : ∀ c ∈ after, isBlank c = true) : trim (before ++ word ++ after) = word := by
  obtain ⟨first, mid, last, rfl, hfirst, hlast⟩ := h.ends
  have ha' : ∀ c ∈ after.reverse, isBlank c = true := fun c hc => ha c (List.mem_reverse.mp hc)
  rw [Text.trim, List.append_assoc, List.dropWhile_append_of_pos hb, List.cons_append,
    List.cons_append, List.dropWhile_cons_of_neg (by simp [hfirst]), List.reverse_cons,
    List.reverse_append, List.reverse_append, List.append_assoc, List.append_assoc,
    List.dropWhile_append_of_pos ha', List.reverse_singleton, List.singleton_append,
    List.dropWhile_cons_of_neg (by simp [hlast])]
  simp

theorem isQuit_iff (s : String) : isQuit s = true ↔ ReadsQuit s.toList := by
  rw [isQuit, decide_eq_true_iff, ← spellsQuit_iff]
  constructor
  · intro h
    obtain ⟨before, after, htext, hb, ha⟩ := exists_trim s.toList
    exact ⟨before, _, after, htext, h, hb, ha⟩
  · intro hx
    obtain ⟨before, word, after, htext, h, hb, ha⟩ := hx
    rw [htext, h.trim hb ha]
    exact h

theorem readsQuit_newline : ReadsQuit (text ++ ['\n']) ↔ ReadsQuit text := by
  have hblank : isBlank '\n' = true := rfl
  constructor
  · intro hx
    obtain ⟨before, word, after, htext, h, hb, ha⟩ := hx
    rcases List.eq_nil_or_concat' after with rfl | ⟨after, c, rfl⟩
    · -- The word would end with the newline.
      obtain ⟨first, mid, last, rfl, -, hlast⟩ := h.ends
      rw [List.append_nil, ← List.append_assoc] at htext
      cases (List.append_inj' htext rfl).2
      rw [hblank] at hlast
      cases hlast
    · rw [← List.append_assoc] at htext
      exact ⟨before, word, after, (List.append_inj' htext rfl).1, h, hb,
        fun c hc => ha c (List.mem_append_left _ hc)⟩
  · intro hx
    obtain ⟨before, word, after, rfl, h, hb, ha⟩ := hx
    refine ⟨before, word, after ++ ['\n'], List.append_assoc .., h, hb, fun c hc => ?_⟩
    rcases List.mem_append.mp hc with hc | hc
    · exact ha c hc
    · cases List.mem_singleton.mp hc
      exact hblank

theorem encode_append (text text' : List Char) :
    encode (text ++ text') = encode text ++ encode text' :=
  List.flatMap_append

theorem encode_singleton (c : Char) : encode [c] = String.utf8EncodeChar c :=
  List.flatMap_singleton ..

theorem encode_inj {text text' : List Char} (h : encode text = encode text') : text = text' := by
  have hbytes : text.utf8Encode = text'.utf8Encode := congrArg List.toByteArray h
  have hdecode := List.utf8Decode?_utf8Encode (l := text)
  rw [hbytes, List.utf8Decode?_utf8Encode, Option.some.injEq] at hdecode
  exact (List.toArray_inj hdecode).symm

/-- No character but the newline is encoded by bytes that end with the newline byte. -/
theorem eq_newline_of_encode (h : String.utf8EncodeChar c = line ++ [0x0A]) :
    c = '\n' ∧ line = [] := by
  have hlt : line.length < (String.utf8EncodeChar c).length := by
    simp [h]
  have hbyte : (String.utf8EncodeChar c)[line.length] = 0x0A := by
    simp [h]
  -- The newline byte begins a character.
  have hfirst : line.length = 0 := by
    have hstart : (String.utf8EncodeChar c)[line.length].IsUTF8FirstByte := by
      rw [hbyte]
      decide
    exact UInt8.isUTF8FirstByte_getElem_utf8EncodeChar.mp hstart
  have hline := List.eq_nil_of_length_eq_zero hfirst
  have hc : encode [c] = encode ['\n'] := by
    rw [encode_singleton, h, hline]
    rfl
  exact ⟨List.singleton_inj.mp (encode_inj hc), hline⟩

theorem encode_eq_newline :
    encode text = line ++ [0x0A] ↔ ∃ start, text = start ++ ['\n'] ∧ encode start = line := by
  constructor
  · intro h
    rcases List.eq_nil_or_concat' text with rfl | ⟨start, c, rfl⟩
    · simp [encode] at h
    · rw [encode_append, encode_singleton] at h
      obtain ⟨bytes, b, hc⟩ :=
        (List.eq_nil_or_concat' (String.utf8EncodeChar c)).resolve_left String.utf8EncodeChar_ne_nil
      rw [hc, ← List.append_assoc] at h
      obtain ⟨hstart, hb⟩ := List.append_inj' h rfl
      cases hb
      obtain ⟨rfl, rfl⟩ := eq_newline_of_encode hc
      exact ⟨start, rfl, (List.append_nil _).symm.trans hstart⟩
  · intro hx
    obtain ⟨start, rfl, rfl⟩ := hx
    exact encode_append start ['\n']

theorem isText_newline : IsText (line ++ [0x0A]) ↔ IsText line := by
  simp only [IsText, encode_eq_newline]
  constructor
  · intro hx
    obtain ⟨_, start, rfl, h⟩ := hx
    exact ⟨start, h⟩
  · intro hx
    obtain ⟨start, h⟩ := hx
    exact ⟨_, start, rfl, h⟩

theorem quits_newline : Quits (line ++ [0x0A]) ↔ Quits line := by
  simp only [Quits, encode_eq_newline]
  constructor
  · intro hx
    obtain ⟨_, ⟨start, rfl, h⟩, hr⟩ := hx
    exact ⟨start, h, readsQuit_newline.mp hr⟩
  · intro hx
    obtain ⟨start, h, hr⟩ := hx
    exact ⟨_, ⟨start, rfl, h⟩, readsQuit_newline.mpr hr⟩

theorem Quits.isText (h : Quits line) : IsText line := by
  obtain ⟨text, ht, -⟩ := h
  exact ⟨text, ht⟩

theorem fromUTF8?_eq_some_iff {s : String} :
    String.fromUTF8? ⟨line.toArray⟩ = some s ↔ encode s.toList = line := by
  have hbytes : s.toByteArray = (encode s.toList).toByteArray := by
    rw [← String.utf8Encode_toList, List.utf8Encode, encode]
  rw [String.fromUTF8?]
  constructor
  · intro h
    split at h
    · cases h
      have hdata := congrArg ByteArray.data hbytes
      simpa [String.fromUTF8] using hdata.symm
    · cases h
  · intro h
    have hline : (⟨line.toArray⟩ : ByteArray) = s.toByteArray := by
      rw [hbytes, h]
      exact ByteArray.ext List.data_toByteArray.symm
    rw [hline, dif_pos s.isValidUTF8]
    rfl

theorem fromUTF8?_eq_none_iff : String.fromUTF8? ⟨line.toArray⟩ = none ↔ ¬IsText line := by
  rw [Option.eq_none_iff_forall_ne_some]
  constructor
  · intro h hx
    obtain ⟨text, ht⟩ := hx
    exact h (String.ofList text) (fromUTF8?_eq_some_iff.mpr (by rw [String.toList_ofList, ht]))
  · intro h s hs
    exact h ⟨s.toList, fromUTF8?_eq_some_iff.mp hs⟩

theorem quits_iff_isQuit {s : String} (hs : String.fromUTF8? ⟨line.toArray⟩ = some s) :
    Quits line ↔ isQuit s = true := by
  rw [fromUTF8?_eq_some_iff] at hs
  rw [isQuit_iff]
  constructor
  · intro hx
    obtain ⟨text, ht, hr⟩ := hx
    exact encode_inj (ht.trans hs.symm) ▸ hr
  · intro hr
    exact ⟨s.toList, hs, hr⟩

theorem lines_nil : lines [] = [] := rfl

theorem lines_of_not_mem (hn : 0x0A ∉ line) (hne : line ≠ []) : lines line = [line] := by
  simp [lines, List.splitOn_eq_singleton hn, hne]

theorem lines_newline (hn : 0x0A ∉ line) (rest : List UInt8) :
    lines (line ++ 0x0A :: rest) = line :: lines rest := by
  obtain ⟨part, parts, hparts⟩ := List.exists_cons_of_ne_nil (List.splitOn_ne_nil 0x0A rest)
  simp only [lines, List.splitOn_append_cons_self_of_not_mem hn, hparts, List.getLast?_cons_cons]
  split <;> rfl

-- A final newline ends the last line and begins no other.
example : lines [0x61, 0x0D, 0x0A, 0x0A] = [[0x61, 0x0D], []] := by decide

theorem splitLine_cases (bytes : List UInt8) :
    (0x0A ∉ bytes ∧ splitLine bytes = (bytes, [])) ∨
    ∃ line rest, 0x0A ∉ line ∧ bytes = line ++ 0x0A :: rest ∧
      splitLine bytes = (line ++ [0x0A], rest) := by
  induction bytes with
  | nil => exact .inl ⟨List.not_mem_nil, rfl⟩
  | cons b bytes ih =>
    by_cases hb : b = 0x0A
    · subst b
      exact .inr ⟨[], bytes, List.not_mem_nil, rfl, by simp [splitLine]⟩
    · rcases ih with ⟨hn, hs⟩ | ⟨line, rest, hn, rfl, hs⟩
      · exact .inl ⟨by simp [Ne.symm hb, hn], by simp [splitLine, hb, hs]⟩
      · exact .inr ⟨b :: line, rest, by simp [Ne.symm hb, hn], rfl, by simp [splitLine, hb, hs]⟩

theorem exists_line (hne : bytes ≠ []) : ∃ line, lines bytes = line :: lines (splitLine bytes).2 ∧
    (IsText (splitLine bytes).1 ↔ IsText line) ∧ (Quits (splitLine bytes).1 ↔ Quits line) := by
  rcases splitLine_cases bytes with ⟨hn, hs⟩ | ⟨line, rest, hn, rfl, hs⟩
  · rw [hs]
    exact ⟨bytes, lines_of_not_mem hn hne, .rfl, .rfl⟩
  · rw [hs]
    exact ⟨line, lines_newline hn rest, isText_newline, quits_newline⟩

theorem not_accepts_nil : ¬Accepts [] := by
  intro hx
  obtain ⟨earlier, line, later, h, -⟩ := hx
  simp at h

theorem accepts_cons : Accepts (line :: ls) ↔ Quits line ∨ (IsText line ∧ Accepts ls) := by
  constructor
  · intro hx
    obtain ⟨earlier, line', later, h, hq, he⟩ := hx
    cases earlier with
    | nil =>
      cases h
      exact .inl hq
    | cons l earlier =>
      cases h
      exact .inr ⟨he line List.mem_cons_self, earlier, line', later, rfl, hq,
        fun l hl => he l (List.mem_cons_of_mem _ hl)⟩
  · rintro (hq | ⟨ht, earlier, line', later, rfl, hq, he⟩)
    · exact ⟨[], line, ls, rfl, hq, fun l hl => absurd hl List.not_mem_nil⟩
    · exact ⟨line :: earlier, line', later, rfl, hq, List.forall_mem_cons.mpr ⟨ht, he⟩⟩

/-- The search goes on exactly where acceptance is decided by the lines that are left. -/
theorem found_searchFrom (consumed : Nat) (bytes : List UInt8) :
    (searchFrom consumed bytes).found = true ↔ Accepts (lines bytes) := by
  fun_induction searchFrom consumed bytes with
  | case1 => simp [lines_nil, not_accepts_nil]
  | case2 consumed b rest line consumed' hs =>
    obtain ⟨l, hlines, htext, hquits⟩ := exists_line (List.cons_ne_nil b rest)
    have hno : ¬IsText l := mt htext.mpr (fromUTF8?_eq_none_iff.mp hs)
    rw [hlines, accepts_cons]
    simp only [Bool.false_eq_true, false_iff]
    rintro (hq | ⟨ht, -⟩)
    · exact hno hq.isText
    · exact hno ht
  | case3 consumed b rest line consumed' text hs hq =>
    obtain ⟨l, hlines, htext, hquits⟩ := exists_line (List.cons_ne_nil b rest)
    exact iff_of_true rfl (hlines ▸ accepts_cons.mpr
      (.inl (hquits.mp ((quits_iff_isQuit hs).mpr hq))))
  | case4 consumed b rest line consumed' text hs hq ih =>
    obtain ⟨l, hlines, htext, hquits⟩ := exists_line (List.cons_ne_nil b rest)
    have hread : IsText l := htext.mp ⟨text.toList, fromUTF8?_eq_some_iff.mp hs⟩
    have hno : ¬Quits l := mt hquits.mpr (mt (quits_iff_isQuit hs).mp hq)
    rw [ih, hlines, accepts_cons, or_iff_right hno, and_iff_right hread]

end TickWorld.Console

namespace TickWorld.Simulation

open Console

/-- Several consoles are read, one after the other. They share the flag. -/
def readConsoles (sim : Simulation) (inputs : List (List UInt8)) : Simulation :=
  inputs.foldl (fun sim bytes => (sim.readConsole bytes).2) sim

theorem running_readConsole (sim : Simulation) (bytes : List UInt8) :
    (sim.readConsole bytes).2.running = (sim.running && !(sim.readConsole bytes).1.found) := by
  simp only [readConsole]
  split
  · rename_i hfound
    rw [hfound, Bool.not_true, Bool.and_false, stop]
  · rename_i hfound
    rw [Bool.eq_false_iff.mpr hfound, Bool.not_false, Bool.and_true]

theorem running_readConsoles (sim : Simulation) (inputs : List (List UInt8)) :
    (sim.readConsoles inputs).running = true ↔
      sim.running = true ∧ ∀ bytes ∈ inputs, ¬Accepts (lines bytes) := by
  induction inputs generalizing sim with
  | nil => simp [readConsoles]
  | cons bytes inputs ih =>
    rw [readConsoles, List.foldl_cons, List.forall_mem_cons, ← and_assoc]
    refine (ih (sim.readConsole bytes).2).trans (and_congr_left' ?_)
    rw [running_readConsole, Bool.and_eq_true, Bool.not_eq_true', ← found_searchFrom 0,
      Bool.not_eq_true]
    rfl

/-- The console is read up to the first line that says "quit", if all lines before it can be read;
then the flag is down and no tick follows. Otherwise the simulation is as it was. The flag never
rises: after any number of consoles it is up if it was up before and none of them quits. -/
theorem console_accepts_quit (sim : Simulation) (bytes : List UInt8) :
    ((sim.readConsole bytes).1.found = true ↔ Accepts (lines bytes)) ∧
    (if (sim.readConsole bytes).1.found then
      (sim.readConsole bytes).2 = { sim with running := false } ∧
        ∀ ticks, (sim.readConsole bytes).2.continues ticks = false
    else (sim.readConsole bytes).2 = sim) ∧
    (sim.readConsole bytes).2.running = (sim.running && !(sim.readConsole bytes).1.found) ∧
    ∀ inputs, (sim.readConsoles inputs).running = true ↔
      sim.running = true ∧ ∀ bytes ∈ inputs, ¬Accepts (lines bytes) := by
  refine ⟨found_searchFrom 0 bytes, ?_, sim.running_readConsole bytes, sim.running_readConsoles⟩
  simp only [readConsole]
  split
  · exact ⟨rfl, fun ticks => Bool.and_false _⟩
  · rfl

end TickWorld.Simulation
