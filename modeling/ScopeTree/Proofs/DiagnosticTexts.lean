import Mathlib.Data.List.Basic
import ScopeTree.Diagnostic.Basic

/-!
# What the text of a diagnostic tells

The text of a diagnostic is lines: the headline, and one for the location and each note and
suggestion.  Where no part has a line feed of its own, the text is cut into these lines again.  A
headline begins with a severity and a code of fixed width, and each line below it with the marker
of what it is, so neither is mistaken for what a message or a note says.

    d.SingleLined → splitOn '\n' d.text = headline and details   (splitOn_text)
    details determine the parts that they show                   (details_eq_iff)
    single-lined diagnostics of one text show the same           (text_eq_text_iff)

What the text leaves open is which part of a location is the file and which the line.
-/

namespace ScopeTree

/-! ## Specification -/

/-- No part of the diagnostic has a line feed in it. -/
structure Diagnostic.SingleLined (d : Diagnostic) : Prop where
  message : '\n' ∉ d.message.toList
  file : ∀ l ∈ d.location, ∀ file ∈ l.file, '\n' ∉ file.toList
  notes : ∀ note ∈ d.notes, '\n' ∉ note.toList
  suggestions : ∀ suggestion ∈ d.suggestions, '\n' ∉ suggestion.toList

/-- What a line below the headline shows. -/
inductive Detail
  | location (text : String)
  | note (text : String)
  | suggestion (text : String)

/-- What the lines below the headline show, in order. -/
def Diagnostic.shown (d : Diagnostic) : List Detail :=
  d.location.toList.map (.location ·.text) ++ d.notes.map .note ++ d.suggestions.map .suggestion

namespace Detail

/-- The line, behind its marker. -/
def line : Detail → String
  | location text => "  --> " ++ text
  | note text => Diagnostic.noteLine text
  | suggestion text => Diagnostic.suggestionLine text

def location? : Detail → Option String
  | location text => some text
  | _ => none

def note? : Detail → Option String
  | note text => some text
  | _ => none

def suggestion? : Detail → Option String
  | suggestion text => some text
  | _ => none

/-! ## Lines below the headline -/

/-- The marker of a line says what it shows. -/
theorem line_inj {a b : Detail} : a.line = b.line ↔ a = b := by
  constructor
  · intro h
    have h : a.line.toList = b.line.toList := congrArg String.toList h
    -- no marker begins like another one, so only the cases of one kind remain
    cases a <;> cases b <;>
      simp [line, Diagnostic.noteLine, Diagnostic.suggestionLine] at h
    all_goals rw [String.toList_inj.1 h]
  · rintro rfl
    rfl

end Detail

namespace Diagnostic

variable {d d' : Diagnostic}

theorem details_eq_map_line (d : Diagnostic) : d.details = d.shown.map Detail.line := by
  simp [details, shown, Detail.line, locationLine, Function.comp_def]

/-- What is shown is in order of its kind, so each kind can be picked out. -/
theorem shown_eq_iff : d.shown = d'.shown ↔
    d.location.map SourceLocation.text = d'.location.map SourceLocation.text ∧
      d.notes = d'.notes ∧ d.suggestions = d'.suggestions := by
  have hlocation : ∀ d : Diagnostic,
      (d.shown.filterMap Detail.location?).head? = d.location.map SourceLocation.text := by
    intro d
    cases hd : d.location <;>
      simp [shown, hd, List.filterMap_map, Function.comp_def, Detail.location?, List.filterMap_none]
  have hnotes : ∀ d : Diagnostic, d.shown.filterMap Detail.note? = d.notes := by
    intro d
    simp [shown, List.filterMap_map, Function.comp_def, Detail.note?, List.filterMap_none]
  have hsuggestions : ∀ d : Diagnostic, d.shown.filterMap Detail.suggestion? = d.suggestions := by
    intro d
    simp [shown, List.filterMap_map, Function.comp_def, Detail.suggestion?, List.filterMap_none]
  constructor
  · intro h
    rw [← hlocation, ← hlocation, ← hnotes d, ← hnotes d', ← hsuggestions d, ← hsuggestions d', h]
    exact ⟨rfl, rfl, rfl⟩
  · rintro ⟨hl, hn, hs⟩
    have hshown : ∀ d : Diagnostic, d.shown =
        (d.location.map SourceLocation.text).toList.map .location ++ d.notes.map .note ++
          d.suggestions.map .suggestion := by
      intro d
      cases hd : d.location <;> simp [shown, hd]
    rw [hshown d, hshown d', hl, hn, hs]

theorem details_eq_iff : d.details = d'.details ↔
    d.location.map SourceLocation.text = d'.location.map SourceLocation.text ∧
      d.notes = d'.notes ∧ d.suggestions = d'.suggestions := by
  rw [details_eq_map_line, details_eq_map_line,
    List.map_inj_right fun a b h => Detail.line_inj.1 h, shown_eq_iff]

/-! ## Headlines -/

theorem length_code_text (c : ErrorCode) : c.text.toList.length = 5 := by
  cases c <;> rfl

theorem code_text_inj {c c' : ErrorCode} (h : c.text = c'.text) : c = c' := by
  have hparse := ErrorCode.parse?_text c
  rw [h, ErrorCode.parse?_text] at hparse
  exact (Option.some.inj hparse).symm

/-- No severity begins like another one, so it is known where it ends. -/
theorem severity_of_append {s s' : Severity} {rest rest' : List Char}
    (h : s.text.toList ++ rest = s'.text.toList ++ rest') : s = s' ∧ rest = rest' := by
  cases s <;> cases s' <;> simp [Severity.text] at h ⊢
  all_goals exact h

theorem headline_eq_iff : d.headline = d'.headline ↔
    d.severity = d'.severity ∧ d.code = d'.code ∧ d.message = d'.message := by
  have htoList : ∀ d : Diagnostic, d.headline.toList =
      d.severity.text.toList ++
        (' ' :: '[' :: (d.code.text.toList ++ (']' :: ':' :: ' ' :: d.message.toList))) := by
    intro d
    simp [headline]
  constructor
  · intro h
    have hchars := htoList d
    rw [h, htoList d'] at hchars
    obtain ⟨hseverity, htail⟩ := severity_of_append hchars
    have htail := (List.cons.inj (List.cons.inj htail).2).2
    obtain ⟨hcode, hmessage⟩ := List.append_inj htail
      ((length_code_text _).trans (length_code_text _).symm)
    refine ⟨hseverity.symm, (code_text_inj (String.toList_inj.1 hcode)).symm, ?_⟩
    exact (String.toList_inj.1 (by simpa using hmessage)).symm
  · rintro ⟨hs, hc, hm⟩
    rw [headline, headline, hs, hc, hm]

/-! ## Lines -/

theorem feed_not_mem_toDigits (n : Nat) : '\n' ∉ Nat.toDigits 10 n := by
  intro h
  exact absurd (Nat.isDigit_of_mem_toDigits (by decide) (by decide) h) (by decide)

/-- Only the file can bring a line feed into the text of a location. -/
theorem feed_not_mem_locationText {l : SourceLocation}
    (h : ∀ file ∈ l.file, '\n' ∉ file.toList) : '\n' ∉ l.text.toList := by
  rcases l with ⟨_ | file, _ | line⟩
  · decide
  · simp [SourceLocation.text, feed_not_mem_toDigits]
  · exact h file rfl
  · simp [SourceLocation.text, feed_not_mem_toDigits, h file rfl]

theorem SingleLined.headline (hd : d.SingleLined) : '\n' ∉ d.headline.toList := by
  have hseverity : '\n' ∉ d.severity.text.toList := by cases d.severity <;> decide
  have hcode : '\n' ∉ d.code.text.toList := by cases d.code <;> decide
  simp [Diagnostic.headline, hseverity, hcode, hd.message]

theorem SingleLined.details (hd : d.SingleLined) : ∀ line ∈ d.details, '\n' ∉ line.toList := by
  intro line hline
  rw [Diagnostic.details, List.mem_append, List.mem_append] at hline
  simp only [List.mem_map, Option.mem_toList] at hline
  rcases hline with (⟨l, hl, rfl⟩ | ⟨note, hn, rfl⟩) | ⟨suggestion, hs, rfl⟩
  · simp [locationLine, feed_not_mem_locationText (hd.file l hl)]
  · simp [noteLine, hd.notes note hn]
  · simp [suggestionLine, hd.suggestions suggestion hs]

/-- At its line feeds the text is cut into the headline and the details. -/
theorem SingleLined.splitOn_text (hd : d.SingleLined) :
    d.text.toList.splitOn '\n' = (d.headline :: d.details).map String.toList := by
  have hlines : ∀ line ∈ (d.headline :: d.details).map String.toList, '\n' ∉ line := by
    intro line hline
    rw [List.map_cons, List.mem_cons, List.mem_map] at hline
    rcases hline with rfl | ⟨detail, hdetail, rfl⟩
    · exact hd.headline
    · exact hd.details detail hdetail
  rw [Diagnostic.text, String.toList_intercalate]
  exact List.splitOn_intercalate '\n' hlines (by simp)

/-! ## Top theorem -/

/-- Diagnostics without a line feed in any part have the same text exactly when they have the same
severity, code, message, notes and suggestions, and both have no location, or both have one and the
texts of the two are the same. -/
theorem text_eq_text_iff (hd : d.SingleLined) (hd' : d'.SingleLined) :
    d.text = d'.text ↔
      d.severity = d'.severity ∧ d.code = d'.code ∧ d.message = d'.message ∧
        d.location.map SourceLocation.text = d'.location.map SourceLocation.text ∧
        d.notes = d'.notes ∧ d.suggestions = d'.suggestions := by
  have hlines : d.text = d'.text ↔ d.headline = d'.headline ∧ d.details = d'.details := by
    constructor
    · intro h
      have hsplit := hd.splitOn_text
      rw [h, hd'.splitOn_text, List.map_inj_right fun a b => String.toList_inj.1] at hsplit
      obtain ⟨hheadline, hdetails⟩ := List.cons.inj hsplit
      exact ⟨hheadline.symm, hdetails.symm⟩
    · rintro ⟨hheadline, hdetails⟩
      rw [text, text, hheadline, hdetails]
  rw [hlines, headline_eq_iff, details_eq_iff]
  simp only [and_assoc]

/-- A diagnostic with parts that look like what stands between parts. -/
def sampleLookalike (location : SourceLocation) : Diagnostic :=
  { code := .stringParse
    severity := .error
    message := "[E3001]: x"
    location := some location
    notes := ["  = help: y", ""] }

/-- Two locations that are the same text give the same text; to move a note to the suggestions gives
another one. -/
theorem text_eq_text_iff_lookalike :
    let d := sampleLookalike ⟨some "site.pp:7", none⟩
    let d' := sampleLookalike ⟨some "site.pp", some 7⟩
    let moved := { d with notes := [""], suggestions := ["  = help: y"] }
    d.SingleLined ∧ d'.SingleLined ∧ moved.SingleLined ∧ d ≠ d' ∧ d.text = d'.text ∧
      d.text ≠ moved.text := by
  intro d d' moved
  have hd : d.SingleLined := ⟨by decide, by decide, by decide, by decide⟩
  have hd' : d'.SingleLined := ⟨by decide, by decide, by decide, by decide⟩
  have hmoved : moved.SingleLined := ⟨by decide, by decide, by decide, by decide⟩
  have hlocation : d.location.map SourceLocation.text = d'.location.map SourceLocation.text := by
    decide
  refine ⟨hd, hd', hmoved, by decide, ?_, fun h => ?_⟩
  · exact (text_eq_text_iff hd hd').2 ⟨rfl, rfl, rfl, hlocation, rfl, rfl⟩
  · obtain ⟨-, -, -, -, hnotes, -⟩ := (text_eq_text_iff hd hmoved).1 h
    exact absurd hnotes (by decide)

-- A line feed in a note can bring in a suggestion that is none.
example : text { code := .internal, severity := .error, notes := ["a\n  = help: b"] } =
    text { code := .internal, severity := .error, notes := ["a"], suggestions := ["b"] } := by
  decide

end Diagnostic

end ScopeTree
