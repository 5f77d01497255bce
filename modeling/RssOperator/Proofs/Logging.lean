/-
What the log formatter does with a message.

The pattern of `extractPrefix` matches a single character, and the slice
that is to take the brackets off then ends before it begins. So a message
either begins with one of five characters and ends the process
(`extractPrefix_trips`), or is returned as it is, in brackets or not
(`extractPrefix_plain`). The operator's own formatter asks for a prefix
unless the entry has one as a field, so it prints every other message, and
all of it (`format_keeps_iff`).
-/
import RssOperator.Logging

namespace RssOperator

variable {msg : List Char} {entry : Entry} {colorCode : String → String}

-- ====================================================== extractPrefix

/-- The message begins with a character that the pattern matches. -/
def Trips (msg : List Char) : Prop :=
  ∃ c ∈ patternChars, msg.head? = some c

/-- The message is a part in brackets and a rest. -/
structure Bracketed (msg p rest : List Char) : Prop where
  split : msg = '[' :: p ++ ']' :: rest
  bracket : ']' ∉ p
  newline : '\n' ∉ p

/-- What is to be extracted: the part in brackets and the rest without the
space around it, or nothing. -/
structure Extracted (msg : List Char) (r : List Char × List Char) :
    Prop where
  bracketed : ∀ p rest, Bracketed msg p rest → r = (p, trimSpace rest)
  plain : (¬ ∃ p rest, Bracketed msg p rest) → r = ([], msg)

theorem extractPrefix_trips (h : Trips msg) :
    extractPrefix msg = .error (.sliceBounds 1 0) := by
  obtain ⟨c, hc, hmsg⟩ := h
  obtain ⟨rest, rfl⟩ := List.head?_eq_some_iff.mp hmsg
  have hfirst : pattern.first (c :: rest)
      = some ⟨[c], fun _ => none, rest⟩ :=
    Regex.first_sat_cons (List.contains_iff_mem.mpr hc)
  unfold extractPrefix
  rw [hfirst]
  rfl

theorem extractPrefix_plain (h : ¬ Trips msg) :
    extractPrefix msg = .ok ([], msg) := by
  have hfirst : pattern.first msg = none := by
    cases hm : pattern.first msg with
    | none => rfl
    | some m =>
        obtain ⟨c, rest, rfl, hc⟩ := Regex.first_sat_some hm
        exact absurd ⟨c, List.contains_iff_mem.mp hc, rfl⟩ h
  unfold extractPrefix
  rw [hfirst]

theorem length_trimSpace_le (s : List Char) :
    (trimSpace s).length ≤ s.length := by
  unfold trimSpace
  rw [List.length_reverse]
  refine (List.dropWhile_sublist isSpace).length_le.trans ?_
  rw [List.length_reverse]
  exact (List.dropWhile_sublist isSpace).length_le

/-- Nothing is extracted from a message in brackets. -/
theorem not_extracted_of_bracketed {p rest : List Char}
    (h : Bracketed msg p rest) : ¬ Extracted msg ([], msg) := by
  intro hr
  have hrest := congrArg Prod.snd (hr.bracketed p rest h)
  have hle := length_trimSpace_le rest
  dsimp only at hrest
  rw [← hrest, h.split, List.length_append, List.length_cons,
    List.length_cons] at hle
  omega

-- =============================================================== texts

/-- The text is somewhere in the output. -/
def Contains (out text : String) : Prop :=
  ∃ front back, out = front ++ text ++ back

namespace Contains

variable {s t : String}

theorem refl (t : String) : Contains t t :=
  ⟨"", "", by rw [String.empty_append, String.append_empty]⟩

theorem empty (s : String) : Contains s "" :=
  ⟨"", s, by rw [String.empty_append, String.empty_append]⟩

theorem append_left (h : Contains s t) (front : String) :
    Contains (front ++ s) t := by
  obtain ⟨a, b, rfl⟩ := h
  refine ⟨front ++ a, b, ?_⟩
  rw [← String.append_assoc, ← String.append_assoc]

theorem append_right (h : Contains s t) (back : String) :
    Contains (s ++ back) t := by
  obtain ⟨a, b, rfl⟩ := h
  exact ⟨a, b ++ back, by rw [String.append_assoc]⟩

theorem colorFunc (h : Contains s t) (style : String) :
    Contains (colorFunc colorCode style s) t := by
  unfold RssOperator.colorFunc
  split
  · exact h
  · exact (h.append_left _).append_right _

theorem padMessage (f : TextFormatter) (t : String) :
    Contains (f.padMessage t) t := by
  unfold TextFormatter.padMessage
  split
  · exact (refl t).append_right _
  · exact refl t

end Contains

-- ============================================================== format

/-- The entry has a prefix of its own that can be printed, or none and a
message that the pattern does not match. -/
def Entry.Printable (entry : Entry) : Prop :=
  match entry.data.lookup "prefix" with
  | some (.string _) => True
  | some _ => False
  | none => ¬ Trips entry.message.toList

/-- The second names are not the name of the prefix. -/
theorem lookup_prefixFieldClashes (data : GoMap String FieldValue) :
    (prefixFieldClashes data).lookup "prefix" = data.lookup "prefix" := by
  have hcopy : ∀ (data : GoMap String FieldValue) (name : String),
      "prefix" ≠ "fields." ++ name →
      (copyField data name).lookup "prefix" = data.lookup "prefix" := by
    intro data name hne
    unfold copyField
    split
    · rfl
    · exact AList.lookup_insert_ne hne
  unfold prefixFieldClashes
  simp only [List.foldl_cons, List.foldl_nil]
  rw [hcopy _ _ (by decide), hcopy _ _ (by decide), hcopy _ _ (by decide)]

/-- The message is never shortened. -/
theorem splitMessage_printable (h : entry.Printable)
    (colorCode : String → String) (scheme : ColorScheme) :
    ∃ prefixText, TextFormatter.splitMessage colorCode entry scheme
      = .ok (prefixText, entry.message) := by
  unfold Entry.Printable at h
  unfold TextFormatter.splitMessage
  cases hvalue : entry.data.lookup "prefix" with
  | none =>
      rw [hvalue] at h
      rw [extractPrefix_plain h]
      exact ⟨_, rfl⟩
  | some value =>
      rw [hvalue] at h
      cases value with
      | string s => exact ⟨_, rfl⟩
      | error message => cases h
      | other text => cases h

theorem splitMessage_panics (h : ¬ entry.Printable)
    (colorCode : String → String) (scheme : ColorScheme) :
    ∃ panic, TextFormatter.splitMessage colorCode entry scheme
      = .error panic := by
  unfold Entry.Printable at h
  unfold TextFormatter.splitMessage
  cases hvalue : entry.data.lookup "prefix" with
  | none =>
      rw [hvalue] at h
      rw [extractPrefix_trips (not_not.mp h)]
      exact ⟨_, rfl⟩
  | some value =>
      rw [hvalue] at h
      cases value with
      | string s => exact absurd trivial h
      | error message => exact ⟨_, rfl⟩
      | other text => exact ⟨_, rfl⟩

theorem printColored_contains (h : entry.Printable) (f : TextFormatter)
    (colorCode : String → String) (b : String) (keys : List String)
    (layout : String) (scheme : ColorScheme) :
    ∃ out, f.printColored colorCode b entry keys layout scheme = .ok out
      ∧ Contains out entry.message := by
  obtain ⟨prefixText, hsplit⟩ := splitMessage_printable h colorCode scheme
  unfold TextFormatter.printColored
  rw [hsplit]
  refine ⟨_, rfl, ?_⟩
  exact ((Contains.padMessage f entry.message).colorFunc _).append_left _

theorem printColored_panics (h : ¬ entry.Printable) (f : TextFormatter)
    (colorCode : String → String) (b : String) (keys : List String)
    (layout : String) (scheme : ColorScheme) :
    ∃ panic, f.printColored colorCode b entry keys layout scheme
      = .error panic := by
  obtain ⟨panic, hsplit⟩ := splitMessage_panics h colorCode scheme
  unfold TextFormatter.printColored
  rw [hsplit]
  exact ⟨panic, rfl⟩

/-- Quoted or not, a text is written out. -/
theorem appendValue_contains (f : TextFormatter) (b s : String) :
    Contains (f.appendValue b (.string s)) s := by
  unfold TextFormatter.appendValue
  dsimp only
  split
  · exact ((Contains.refl s).append_left _).append_right _
  · exact (Contains.refl s).append_left _

theorem appendKeyValue_contains (f : TextFormatter) (b key s : String)
    (appendSpace : Bool) :
    Contains (f.appendKeyValue b key (.string s) appendSpace) s := by
  unfold TextFormatter.appendKeyValue
  cases appendSpace with
  | false => exact appendValue_contains f _ s
  | true => exact (appendValue_contains f _ s).append_right _

theorem printPlain_contains (entry : Entry) (f : TextFormatter)
    (b : String) (keys : List String) (layout : String) :
    Contains (f.printPlain b entry keys layout) entry.message := by
  by_cases hempty : entry.message = ""
  · rw [hempty]
    exact Contains.empty _
  · unfold TextFormatter.printPlain
    dsimp only
    rw [if_pos hempty]
    exact appendKeyValue_contains f _ "msg" entry.message _

/-- The formatter lays the entry out, rather than listing its fields. -/
def TextFormatter.formats (f : TextFormatter) (entry : Entry) : Bool :=
  f.forceFormatting || entry.terminal.getD f.isTerminal

/-- The entry with the second names of its fields. -/
def Entry.renamed (entry : Entry) : Entry :=
  { entry with data := prefixFieldClashes entry.data }

theorem Entry.printable_renamed :
    entry.renamed.Printable ↔ entry.Printable := by
  unfold Entry.Printable Entry.renamed
  rw [lookup_prefixFieldClashes]

variable {f : TextFormatter}

theorem format_of_formats (h : f.formats entry = true)
    (colorCode : String → String) (sorter : Sorter String id)
    (o : Order String) (b : String) :
    ∃ keys layout scheme, f.format colorCode sorter o b entry
      = ((f.init entry.renamed).printColored colorCode b entry.renamed keys
          layout scheme).map (· ++ "\n") := by
  have hcond : ((f.init entry.renamed).forceFormatting
      || (f.init entry.renamed).isTerminal) = true := h
  unfold TextFormatter.format
  dsimp only
  rw [← Entry.renamed, if_pos hcond]
  exact ⟨_, _, _, rfl⟩

theorem format_of_not_formats (h : ¬ f.formats entry = true)
    (colorCode : String → String) (sorter : Sorter String id)
    (o : Order String) (b : String) :
    ∃ keys layout, f.format colorCode sorter o b entry
      = .ok ((f.init entry.renamed).printPlain b entry.renamed keys layout
          ++ "\n") := by
  have hcond : ¬ ((f.init entry.renamed).forceFormatting
      || (f.init entry.renamed).isTerminal) = true := h
  unfold TextFormatter.format
  dsimp only
  rw [← Entry.renamed, if_neg hcond]
  exact ⟨_, _, rfl⟩

/-- A line is printed, with the whole message in it, unless the entry is laid
out and cannot be printed. -/
theorem format_keeps_iff (colorCode : String → String)
    (sorter : Sorter String id) (o : Order String) (b : String) :
    (∃ out, f.format colorCode sorter o b entry = .ok out
        ∧ Contains out entry.message)
      ↔ (f.formats entry = true → entry.Printable) := by
  by_cases hf : f.formats entry = true
  · obtain ⟨keys, layout, scheme, heq⟩ := format_of_formats hf colorCode
      sorter o b
    rw [heq]
    by_cases hp : entry.Printable
    · obtain ⟨out, hout, hmessage⟩ := printColored_contains
        (Entry.printable_renamed.mpr hp) (f.init entry.renamed) colorCode b
        keys layout scheme
      rw [hout]
      exact iff_of_true ⟨_, rfl, hmessage.append_right _⟩ fun _ => hp
    · obtain ⟨panic, hpanic⟩ := printColored_panics
        (mt Entry.printable_renamed.mp hp) (f.init entry.renamed) colorCode b
        keys layout scheme
      rw [hpanic]
      refine iff_of_false ?_ fun h => hp (h hf)
      rintro ⟨out, hout, -⟩
      cases hout
  · obtain ⟨keys, layout, heq⟩ := format_of_not_formats hf colorCode sorter
      o b
    refine iff_of_true ⟨_, heq, ?_⟩ fun h => absurd h hf
    exact (printPlain_contains entry.renamed (f.init entry.renamed) b keys
      layout).append_right _

/-- Extraction is total and faithful on the messages that begin with none of
the five characters and are not in brackets. An entry is printed, with all of
its message, unless it is laid out by a formatter that has to ask for a prefix
and the message begins with one of them, or its own prefix is no string. -/
theorem extracts_and_prints_iff (msg : List Char) (f : TextFormatter)
    (colorCode : String → String) (sorter : Sorter String id)
    (o : Order String) (b : String) (entry : Entry) :
    ((∃ r, extractPrefix msg = .ok r ∧ Extracted msg r)
        ↔ ¬ Trips msg ∧ ¬ ∃ p rest, Bracketed msg p rest)
      ∧ ((∃ out, f.format colorCode sorter o b entry = .ok out
            ∧ Contains out entry.message)
        ↔ (f.formats entry = true → entry.Printable)) := by
  refine ⟨?_, format_keeps_iff colorCode sorter o b⟩
  constructor
  · rintro ⟨r, hr, hextracted⟩
    have hplain : ¬ Trips msg := by
      intro htrips
      rw [extractPrefix_trips htrips] at hr
      cases hr
    refine ⟨hplain, ?_⟩
    rintro ⟨p, rest, hbracketed⟩
    rw [extractPrefix_plain hplain] at hr
    injection hr with hr
    rw [← hr] at hextracted
    exact not_extracted_of_bracketed hbracketed hextracted
  · rintro ⟨hplain, hnone⟩
    refine ⟨_, extractPrefix_plain hplain, ?_, fun _ => rfl⟩
    intro p rest hbracketed
    exact absurd ⟨p, rest, hbracketed⟩ hnone

/-- An entry of the operator with this message. -/
def Entry.saying (message : String) : Entry where
  level := .info
  message := message
  data := (∅ : GoMap String FieldValue).insert "c" (.string "controller")
  time := fun _ => "2018-06-01T00:00:00Z"
  seconds := 0
  terminal := some false

/-- A message in parentheses ends the process, and one in brackets is left as
it is. -/
theorem parenthesis_panics :
    extractPrefix "(no pods)".toList = .error (.sliceBounds 1 0)
      ∧ rootFormatter.format (fun _ => "") (.insertion id) (.stored _) ""
          (.saying "(no pods)") = .error (.sliceBounds 1 0)
      ∧ Bracketed "[db-0] started".toList "db-0".toList
          " started".toList
      ∧ extractPrefix "[db-0] started".toList
        = .ok ([], "[db-0] started".toList) := by
  refine ⟨rfl, rfl, ⟨rfl, by decide, by decide⟩, rfl⟩

end RssOperator
