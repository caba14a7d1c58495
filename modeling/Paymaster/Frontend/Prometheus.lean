import Paymaster.Backend.Metrics

/-!
# Reading the exposition

The dashboard parses the text that the backend renders, line by line: comments
declare families, and a sample goes to its own family or, with a histogram's
suffix, to the histogram. What the registry renders is read back as it is.
-/

namespace Paymaster.Prometheus

open PlainText Metrics

structure Sample (num : Numbers) where
  name : Text
  labels : Labels
  value : num.Value

structure MetricFamily (num : Numbers) where
  name : Text
  type : Text
  help : Text
  samples : List (Sample num)

/-- Families by name, in the order in which they were first mentioned. -/
abbrev Families (num : Numbers) := List (Text × MetricFamily num)

/-! ## The regular expressions -/

def isLetter (c : Char) : Bool := (0x61 ≤ c.toNat && c.toNat ≤ 0x7a) || (0x41 ≤ c.toNat && c.toNat ≤ 0x5a)

def isDigit (c : Char) : Bool := 0x30 ≤ c.toNat && c.toNat ≤ 0x39

def isLabelStart (c : Char) : Bool := isLetter c || c = '_'

def isLabelChar (c : Char) : Bool := isLabelStart c || isDigit c

def isNameStart (c : Char) : Bool := isLabelStart c || c = ':'

def isNameChar (c : Char) : Bool := isNameStart c || isDigit c

/-- `\s+(.+)$`. Of a trimmed line the rest behind the white space is not empty. -/
def rawValue (text : Text) : Option Text :=
  let raw := text.dropWhile isSpace
  if text.takeWhile isSpace = [] ∨ raw = [] ∨ raw.any isTerminator = true then none else some raw

/-- `(.*)\}\s+(.+)$`, the section as long as possible. -/
def closing : Text → Option (Text × Text)
  | [] => none
  | c :: rest =>
    match if isTerminator c then none else closing rest with
    | some (labelSection, raw) => some (c :: labelSection, raw)
    | none => if c = '}' then (rawValue rest).map fun raw => ([], raw) else none

/-- `SAMPLE_LINE`: the name, the label section if there is one, and the value. -/
def matchSample (line : Text) : Option (Text × Option Text × Text) :=
  let name := line.takeWhile isNameChar
  let rest := line.dropWhile isNameChar
  if name.head?.any isNameStart then
    match rest with
    | '{' :: labelled => (closing labelled).map fun (labelSection, raw) => (name, some labelSection, raw)
    | _ => (rawValue rest).map fun raw => (name, none, raw)
  else none

/-- `^#\s+WORD\s+(\S+)` and what follows. -/
def matchComment (word line : Text) : Option (Text × Text) :=
  match line with
  | '#' :: rest =>
    let body := rest.dropWhile isSpace
    if rest.takeWhile isSpace = [] ∨ ¬ word <+: body then none
    else
      let operands := body.drop word.length
      let name := (operands.dropWhile isSpace).takeWhile fun c => !isSpace c
      if operands.takeWhile isSpace = [] ∨ name = [] then none
      else some (name, (operands.dropWhile isSpace).dropWhile fun c => !isSpace c)
  | _ => none

/-- `\s+(.*)$` behind the name of a `HELP`. Of a trimmed line the text is not empty. -/
def matchHelp (line : Text) : Option (Text × Text) :=
  match matchComment "HELP".toList line with
  | some (name, rest) => (rawValue rest).map fun help => (name, help)
  | none => none

def matchType (line : Text) : Option (Text × Text) :=
  match matchComment "TYPE".toList line with
  | some (name, rest) =>
    match rawValue rest with
    | some type => if type.any isSpace then none else some (name, type)
    | none => none
  | none => none

/-- `((?:[^"\\]|\\.)*)"`: what stands before the first quote that is not escaped. -/
def quoted : Text → Option Text
  | [] => none
  | '"' :: _ => some []
  | '\\' :: c :: rest => if isTerminator c then none else (quoted rest).map fun raw => '\\' :: c :: raw
  | ['\\'] => none
  | c :: rest => (quoted rest).map fun raw => c :: raw

def pairAt (text : Text) : Option (Text × Text × Nat) :=
  let key := text.takeWhile isLabelChar
  if key.head?.any isLabelStart then
    match text.dropWhile isLabelChar with
    | '=' :: '"' :: body => (quoted body).map fun raw => (key, raw, key.length + raw.length + 3)
    | _ => none
  else none

def unescape : Text → Text
  | '\\' :: '"' :: rest => '"' :: unescape rest
  | '\\' :: '\\' :: rest => '\\' :: unescape rest
  | '\\' :: 'n' :: rest => '\n' :: unescape rest
  | c :: rest => c :: unescape rest
  | [] => []

/-- The pairs that repeated `exec` finds, with as many characters of the last one still to skip. -/
def scanPairs : Nat → Text → List (Text × Text)
  | _, [] => []
  | skip + 1, _ :: rest => scanPairs skip rest
  | 0, c :: rest =>
    match pairAt (c :: rest) with
    | some (key, raw, length) => (key, unescape raw) :: scanPairs (length - 1) rest
    | none => scanPairs 0 rest

/-- `labels[key] = value`. A text that is assigned to the prototype is lost. -/
def assign (labels : Labels) (key value : Text) : Labels :=
  if key = "__proto__".toList then labels else Assoc.set labels key value

def parseLabels (labelSection : Option Text) : Labels :=
  (scanPairs 0 (labelSection.getD [])).foldl (fun labels pair => assign labels pair.1 pair.2) []

section
variable {num : Numbers}

def parseSampleValue (raw : Text) : Option num.Value :=
  let token := (trim raw).takeWhile fun c => !isSpace c
  if token = "+Inf".toList then some num.infinity
  else if token = "-Inf".toList then some num.minusInfinity
  else if token = "NaN".toList then some num.nan
  else num.number token

def baseName (name : Text) : Text :=
  if "_bucket".toList <:+ name then name.take (name.length - 7)
  else if "_sum".toList <:+ name then name.take (name.length - 4)
  else if "_count".toList <:+ name then name.take (name.length - 6)
  else name

def modify (families : Families num) (name : Text) (f : MetricFamily num → MetricFamily num) : Families num :=
  Assoc.set families name (f ((Assoc.get families name).getD ⟨name, "untyped".toList, [], []⟩))

/-- A histogram's series belong to the family that was declared. -/
def ownerOf (families : Families num) (name : Text) : Text :=
  match Assoc.get families (baseName name) with
  | some family => if family.type = "histogram".toList then baseName name else name
  | none => name

def parseLine (families : Families num) (rawLine : Text) : Families num :=
  let line := trim rawLine
  if line = [] then families
  else if line.head? = some '#' then
    match matchHelp line with
    | some (name, help) => modify families name fun family => { family with help := help }
    | none =>
      match matchType line with
      | some (name, type) => modify families name fun family => { family with type := type }
      | none => families
  else
    match matchSample line with
    | none => families
    | some (name, labelSection, raw) =>
      match parseSampleValue raw with
      | none => families
      | some value =>
        modify families (ownerOf families name) fun family =>
          { family with samples := family.samples ++ [⟨name, parseLabels labelSection, value⟩] }

def parsePrometheusText (text : Text) : Families num := (text.splitOn '\n').foldl parseLine []

end

/-! ## Labels are read back -/

def Clean (value : Text) : Prop := '\r' ∉ value ∧ '\u2028' ∉ value ∧ '\u2029' ∉ value

instance (value : Text) : Decidable (Clean value) := inferInstanceAs (Decidable (_ ∧ _ ∧ _))

structure LabelName (key : Text) : Prop where
  start : key.head?.any isLabelStart = true
  chars : ∀ c ∈ key, isLabelChar c = true
  assignable : key ≠ "__proto__".toList

instance (key : Text) : Decidable (LabelName key) :=
  decidable_of_iff (key.head?.any isLabelStart = true ∧ key.all isLabelChar = true ∧ key ≠ "__proto__".toList)
    ⟨fun h => ⟨h.1, List.all_eq_true.mp h.2.1, h.2.2⟩, fun h => ⟨h.start, List.all_eq_true.mpr h.chars, h.assignable⟩⟩

section
variable {key value rest text : Text}

theorem escapeChar_slash : escapeChar '\\' = ['\\', '\\'] := rfl

theorem escapeChar_quote : escapeChar '"' = ['\\', '"'] := rfl

theorem escapeChar_feed : escapeChar '\n' = ['\\', 'n'] := rfl

theorem escapeChar_other {c : Char} (hslash : c ≠ '\\') (hquote : c ≠ '"') (hfeed : c ≠ '\n') : escapeChar c = [c] := by
  simp [escapeChar, hslash, hquote, hfeed]

theorem quoted_escape : quoted (escape value ++ '"' :: rest) = some (escape value) := by
  rw [escape_eq]
  induction value with
  | nil => rfl
  | cons c value ih =>
    rw [List.flatMap_cons, List.append_assoc]
    by_cases hslash : c = '\\'
    · subst hslash
      simp [escapeChar_slash, quoted, ih, isTerminator]
    by_cases hquote : c = '"'
    · subst hquote
      simp [escapeChar_quote, quoted, ih, isTerminator]
    by_cases hfeed : c = '\n'
    · subst hfeed
      simp [escapeChar_feed, quoted, ih, isTerminator]
    simp [escapeChar_other hslash hquote hfeed, quoted, hslash, ih]

theorem unescape_escape : unescape (escape value) = value := by
  rw [escape_eq]
  induction value with
  | nil => rfl
  | cons c value ih =>
    rw [List.flatMap_cons]
    by_cases hslash : c = '\\'
    · subst hslash
      simp [escapeChar_slash, unescape, ih]
    by_cases hquote : c = '"'
    · subst hquote
      simp [escapeChar_quote, unescape, ih]
    by_cases hfeed : c = '\n'
    · subst hfeed
      simp [escapeChar_feed, unescape, ih]
    simp [escapeChar_other hslash hquote hfeed, unescape, hslash, ih]

theorem escape_clean (h : Clean value) : ∀ c ∈ escape value, isTerminator c = false := by
  rw [escape_eq]
  intro c hc
  obtain ⟨d, hd, hc⟩ := List.mem_flatMap.mp hc
  have hfeed : d = '\n' ∨ isTerminator d = false := by
    by_cases hd' : d = '\n'
    · exact .inl hd'
    · have hreturn : d ≠ '\r' := fun e => h.1 (e ▸ hd)
      have hline : d ≠ '\u2028' := fun e => h.2.1 (e ▸ hd)
      have hparagraph : d ≠ '\u2029' := fun e => h.2.2 (e ▸ hd)
      exact .inr (by simp [isTerminator, hd', hreturn, hline, hparagraph])
  by_cases hslash : d = '\\'
  · subst hslash
    rw [escapeChar_slash] at hc
    simp at hc
    subst hc
    rfl
  by_cases hquote : d = '"'
  · subst hquote
    rw [escapeChar_quote] at hc
    rcases List.mem_pair.mp hc with rfl | rfl <;> rfl
  by_cases hd' : d = '\n'
  · subst hd'
    rw [escapeChar_feed] at hc
    rcases List.mem_pair.mp hc with rfl | rfl <;> rfl
  rw [escapeChar_other hslash hquote hd', List.mem_singleton] at hc
  subst hc
  rcases hfeed with hfeed | hfeed
  · exact absurd hfeed hd'
  · exact hfeed

theorem scanPairs_skip {front : Text} : scanPairs front.length (front ++ rest) = scanPairs 0 rest := by
  induction front with
  | nil => rfl
  | cons c front ih => exact ih

theorem pairAt_renderLabel (value rest : Text) (h : LabelName key) : pairAt (renderLabel (key, value) ++ rest) =
    some (key, escape value, (renderLabel (key, value)).length) := by
  have hequals : isLabelChar '=' = false := rfl
  have hsplit : renderLabel (key, value) ++ rest = key ++ '=' :: ('"' :: (escape value ++ '"' :: rest)) := by
    simp [renderLabel]
  have hlength : (renderLabel (key, value)).length = key.length + (escape value).length + 3 := by
    simp [renderLabel]
    omega
  unfold pairAt
  rw [hsplit, takeWhile_append_cons h.chars hequals, dropWhile_append_cons h.chars hequals]
  simp [h.start, quoted_escape, hlength]

theorem scanPairs_renderLabel (value rest : Text) (h : LabelName key) :
    scanPairs 0 (renderLabel (key, value) ++ rest) = (key, value) :: scanPairs 0 rest := by
  have hpair := pairAt_renderLabel value rest h
  cases hlabel : renderLabel (key, value) with
  | nil =>
    have := congrArg List.length hlabel
    simp [renderLabel] at this
  | cons c tail =>
    rw [hlabel] at hpair
    have hskip : scanPairs tail.length (tail ++ rest) = scanPairs 0 rest := scanPairs_skip
    simp only [List.cons_append, List.length_cons] at hpair ⊢
    simp only [scanPairs, hpair, unescape_escape, Nat.add_sub_cancel, hskip]

theorem scanPairs_labels {labels : Labels} (h : ∀ label ∈ labels, LabelName label.1) :
    scanPairs 0 ([','].intercalate (labels.map renderLabel)) = labels := by
  induction labels with
  | nil => rfl
  | cons label labels ih =>
    have hlabel : LabelName label.1 := h label (by simp)
    have hrest := ih fun label hl => h label (by simp [hl])
    have hcomma : ∀ text, scanPairs 0 (',' :: text) = scanPairs 0 text := by
      intro text
      have hnone : pairAt (',' :: text) = none := rfl
      simp [scanPairs, hnone]
    cases labels with
    | nil =>
      have := scanPairs_renderLabel label.2 [] hlabel
      simpa [List.intercalate, scanPairs] using this
    | cons next labels =>
      have := scanPairs_renderLabel label.2 (',' :: [','].intercalate ((next :: labels).map renderLabel)) hlabel
      rw [hcomma, hrest] at this
      simpa [List.intercalate, List.intersperse_cons_cons] using this

theorem foldl_assign {acc labels : Labels} (hnames : ∀ label ∈ labels, LabelName label.1)
    (hacc : ∀ label ∈ labels, label.1 ∉ acc.map Prod.fst) (hnodup : (labels.map Prod.fst).Nodup) :
    labels.foldl (fun labels pair => assign labels pair.1 pair.2) acc = acc ++ labels := by
  induction labels generalizing acc with
  | nil => simp
  | cons label labels ih =>
    have hset : assign acc label.1 label.2 = acc ++ [label] := by
      rw [assign, if_neg (hnames label List.mem_cons_self).assignable]
      exact Assoc.set_of_notMem (hacc label List.mem_cons_self)
    obtain ⟨hnotMem, hnodup⟩ := List.nodup_cons.mp hnodup
    rw [List.foldl_cons, hset, ih (fun l hl => hnames l (List.mem_cons_of_mem _ hl)) _ hnodup]
    · simp
    · intro l hl
      simp only [List.map_append, List.map_cons, List.map_nil, List.mem_append, List.mem_singleton, not_or]
      refine ⟨hacc l (by simp [hl]), ?_⟩
      intro heq
      exact hnotMem (heq ▸ List.mem_map_of_mem hl)

structure LabelSet (labels : Labels) : Prop where
  names : ∀ label ∈ labels, LabelName label.1
  clean : ∀ label ∈ labels, Clean label.2
  distinct : (labels.map Prod.fst).Nodup

instance (labels : Labels) : Decidable (LabelSet labels) :=
  decidable_of_iff (labels.all (fun label => decide (LabelName label.1 ∧ Clean label.2)) = true ∧
      (labels.map Prod.fst).Nodup)
    ⟨fun h => by
      have hall := List.all_eq_true.mp h.1
      simp only [decide_eq_true_eq] at hall
      exact ⟨fun label hl => (hall label hl).1, fun label hl => (hall label hl).2, h.2⟩,
    fun h => ⟨List.all_eq_true.mpr fun label hl => by simp [h.names label hl, h.clean label hl], h.distinct⟩⟩

theorem parseLabels_some {labels : Labels} (h : LabelSet labels) :
    parseLabels (some ([','].intercalate (labels.map renderLabel))) = labels := by
  unfold parseLabels
  rw [Option.getD_some, scanPairs_labels h.names, foldl_assign h.names (by simp) h.distinct, List.nil_append]

end

/-! ## Lines are read back -/

structure MetricName (name : Text) : Prop where
  start : name.head?.any isNameStart = true
  chars : ∀ c ∈ name, isNameChar c = true

instance (name : Text) : Decidable (MetricName name) :=
  decidable_of_iff (name.head?.any isNameStart = true ∧ name.all isNameChar = true)
    ⟨fun h => ⟨h.1, List.all_eq_true.mp h.2⟩, fun h => ⟨h.start, List.all_eq_true.mpr h.chars⟩⟩

structure HelpText (help : Text) : Prop where
  trimmed : Trimmed help
  line : ∀ c ∈ help, isTerminator c = false

instance (help : Text) : Decidable (HelpText help) :=
  decidable_of_iff (Trimmed help ∧ help.all (fun c => !isTerminator c) = true)
    ⟨fun h => ⟨h.1, fun c hc => by simpa using List.all_eq_true.mp h.2 c hc⟩,
    fun h => ⟨h.trimmed, List.all_eq_true.mpr fun c hc => by simp [h.line c hc]⟩⟩

section
variable {num : Numbers} {name help type text : Text} {labels : Labels} {value : num.Value} {c : Char}

theorem toNat_of_isNameChar (h : isNameChar c = true) : 48 ≤ c.toNat ∧ c.toNat ≤ 122 := by
  simp only [isNameChar, isNameStart, isLabelStart, isLetter, isDigit, Bool.or_eq_true, Bool.and_eq_true,
    decide_eq_true_eq] at h
  rcases h with (((h | h) | rfl) | rfl) | h
  case inl.inl.inr => decide
  case inl.inr => decide
  all_goals omega

theorem isSpace_nameChar (h : isNameChar c = true) : isSpace c = false := by
  have hrange := toNat_of_isNameChar h
  by_cases hs : isSpace c = true
  · have := toNat_of_isSpace hs
    omega
  · simpa using hs

theorem isTerminator_nameChar (h : isNameChar c = true) : isTerminator c = false := by
  by_cases ht : isTerminator c = true
  · have := isSpace_of_isTerminator ht
    rw [isSpace_nameChar h] at this
    cases this
  · simpa using ht

theorem isNameChar_labelChar (h : isLabelChar c = true) : isNameChar c = true := by
  simp only [isLabelChar, isNameChar, isNameStart, Bool.or_eq_true] at h ⊢
  tauto

theorem text_trimmed (v : num.Value) : Trimmed (num.text v) := by
  obtain ⟨hne, hvisible⟩ := num.text_visible v
  refine ⟨?_, ?_⟩
  · cases htext : num.text v with
    | nil => exact absurd htext hne
    | cons c rest => exact ⟨c, rest, rfl, (hvisible c (by simp [htext])).1⟩
  · exact ⟨_, _, (List.dropLast_append_getLast hne).symm, (hvisible _ (List.getLast_mem hne)).1⟩

theorem parseSampleValue_text (v : num.Value) : @parseSampleValue num (num.text v) = some v := by
  have hvisible := (num.text_visible v).2
  have htake : (num.text v).takeWhile (fun c => !isSpace c) = num.text v :=
    takeWhile_all fun c hc => by simp [(hvisible c hc).1]
  unfold parseSampleValue
  rw [trim_eq (text_trimmed v), htake, if_neg (num.text_signed v).1, if_neg (num.text_signed v).2]
  by_cases hnan : num.text v = "NaN".toList
  · rw [if_pos hnan, (num.text_nan v).mp hnan]
  · rw [if_neg hnan]
    exact num.number_text v fun hv => hnan ((num.text_nan v).mpr hv)

/-! Samples -/

theorem rawValue_space (htext : Trimmed text) (hline : ∀ c ∈ text, isTerminator c = false) :
    rawValue (' ' :: text) = some text := by
  obtain ⟨c, rest, hhead, hc⟩ := htext.head
  have hdrop : (' ' :: text).dropWhile isSpace = text := by
    rw [List.dropWhile_cons_of_pos (by rfl), hhead, List.dropWhile_cons_of_neg (by simp [hc])]
  have htake : (' ' :: text).takeWhile isSpace ≠ [] := by
    rw [List.takeWhile_cons_of_pos (by rfl)]
    simp
  have hany : ¬ text.any isTerminator = true := by
    simpa using fun c hc => hline c hc
  have hne : text ≠ [] := by
    rw [hhead]
    simp
  unfold rawValue
  rw [hdrop, if_neg fun h => h.elim htake fun h => h.elim hne hany]

theorem text_line (v : num.Value) : ∀ c ∈ num.text v, isTerminator c = false := by
  intro c hc
  by_cases ht : isTerminator c = true
  · have := isSpace_of_isTerminator ht
    rw [((num.text_visible v).2 c hc).1] at this
    cases this
  · simpa using ht

theorem closing_eq_none (h : '}' ∉ text) : closing text = none := by
  induction text with
  | nil => rfl
  | cons c text ih =>
    have hc : c ≠ '}' := fun e => h (by simp [e])
    have hrest : closing text = none := ih fun hm => h (by simp [hm])
    by_cases ht : isTerminator c = true <;> simp [closing, ht, hrest, hc]

theorem closing_eq {labelSection : Text} (hsection : ∀ c ∈ labelSection, isTerminator c = false) (v : num.Value) :
    closing (labelSection ++ '}' :: ' ' :: num.text v) = some (labelSection, num.text v) := by
  induction labelSection with
  | nil =>
    have hbrace : '}' ∉ ' ' :: num.text v := by
      intro h
      rcases List.mem_cons.mp h with h | h
      · cases h
      · exact ((num.text_visible v).2 _ h).2 rfl
    have hraw := rawValue_space (text_trimmed v) (text_line v)
    have hterminator : isTerminator '}' = false := rfl
    rw [List.nil_append, closing, closing_eq_none hbrace]
    simp [hterminator, hraw]
  | cons c labelSection ih =>
    have hrest := ih fun c hc => hsection c (by simp [hc])
    simp [closing, hsection c (by simp), hrest]

theorem renderLabel_line {label : Text × Text} (hname : LabelName label.1) (hclean : Clean label.2) :
    ∀ c ∈ renderLabel label, isTerminator c = false := by
  intro c hc
  simp only [renderLabel, List.mem_append, List.mem_cons, List.not_mem_nil, or_false] at hc
  rcases hc with (hc | rfl | rfl | hc) | rfl
  · exact isTerminator_nameChar (isNameChar_labelChar (hname.chars c hc))
  · rfl
  · rfl
  · exact escape_clean hclean c hc
  · rfl

theorem labels_line (h : LabelSet labels) :
    ∀ c ∈ [','].intercalate (labels.map renderLabel), isTerminator c = false := by
  obtain ⟨hnames, hclean, -⟩ := h
  induction labels with
  | nil => intro c hc; simp [List.intercalate] at hc
  | cons label labels ih =>
    have hrest := ih (fun l hl => hnames l (by simp [hl])) (fun l hl => hclean l (by simp [hl]))
    have hlabel := renderLabel_line (hnames label (by simp)) (hclean label (by simp))
    cases labels with
    | nil => simpa [List.intercalate] using hlabel
    | cons next labels =>
      intro c hc
      simp only [List.intercalate, List.map_cons, List.intersperse_cons_cons, List.flatten_cons, List.mem_append] at hc hrest
      rcases hc with hc | hc | hc
      · exact hlabel c hc
      · rw [List.mem_singleton.mp hc]
        rfl
      · exact hrest c (by simpa using hc)

/-- A sample's line, taken apart. -/
theorem matchSample_sampleLine (hname : MetricName name) (hlabels : LabelSet labels) :
    ∃ labelSection, matchSample (sampleLine name labels value) = some (name, labelSection, num.text value) ∧
      parseLabels labelSection = labels := by
  cases labels with
  | nil =>
    refine ⟨none, ?_, rfl⟩
    have hspace : isNameChar ' ' = false := rfl
    have hraw := rawValue_space (text_trimmed value) (text_line value)
    unfold matchSample sampleLine renderLabels
    rw [List.append_nil, takeWhile_append_cons hname.chars hspace, dropWhile_append_cons hname.chars hspace]
    simp [hname.start, hraw]
  | cons label labels =>
    refine ⟨some ([','].intercalate ((label :: labels).map renderLabel)), ?_, parseLabels_some hlabels⟩
    have hbrace : isNameChar '{' = false := rfl
    have hline : sampleLine name (label :: labels) value =
        name ++ '{' :: ([','].intercalate ((label :: labels).map renderLabel) ++ '}' :: ' ' :: num.text value) := by
      simp [sampleLine, renderLabels]
    unfold matchSample
    rw [hline, takeWhile_append_cons hname.chars hbrace, dropWhile_append_cons hname.chars hbrace]
    simp only [hname.start, if_true, closing_eq (labels_line hlabels) value, Option.map_some]

theorem sampleLine_trimmed (hname : MetricName name) : Trimmed (sampleLine name labels value) where
  head := by
    cases hcase : name with
    | nil =>
      have := hname.start
      simp [hcase] at this
    | cons c rest =>
      refine ⟨c, _, rfl, isSpace_nameChar (hname.chars c (by simp [hcase]))⟩
  last := by
    obtain ⟨front, c, hlast, hc⟩ := (text_trimmed value).last
    exact ⟨name ++ renderLabels labels ++ ' ' :: front, c, by simp [sampleLine, hlast], hc⟩

theorem parseLine_sampleLine (families : Families num) (value : num.Value) (hname : MetricName name) (hlabels : LabelSet labels) :
    parseLine families (sampleLine name labels value) = modify families (ownerOf families name) fun family =>
      { family with samples := family.samples ++ [⟨name, labels, value⟩] } := by
  obtain ⟨labelSection, hmatch, hparse⟩ : ∃ labelSection, matchSample (sampleLine name labels value) =
      some (name, labelSection, num.text value) ∧ parseLabels labelSection = labels := matchSample_sampleLine hname hlabels
  obtain ⟨c, rest, hhead, hc⟩ : ∃ c rest, sampleLine name labels value = c :: rest ∧ isSpace c = false :=
    (sampleLine_trimmed hname).head
  have hcomment : c ≠ '#' := by
    rintro rfl
    have hstart := hname.start
    cases hcase : name with
    | nil => simp [hcase] at hstart
    | cons d rest' =>
      rw [hcase] at hstart hhead
      simp only [sampleLine, List.cons_append, List.cons.injEq] at hhead
      rw [hhead.1] at hstart
      cases hstart
  unfold parseLine
  rw [trim_eq (sampleLine_trimmed hname)]
  simp only [hhead, List.head?_cons, Option.some.injEq, reduceCtorEq, if_false, if_neg hcomment]
  rw [← hhead, hmatch]
  simp only [parseSampleValue_text, hparse]

/-! Headers -/

theorem matchComment_eq {word rest : Text} (hword : ∃ c w, word = c :: w ∧ isSpace c = false) (hname : MetricName name) :
    matchComment word ('#' :: ' ' :: (word ++ ' ' :: (name ++ ' ' :: rest))) = some (name, ' ' :: rest) := by
  obtain ⟨c, w, rfl, hc⟩ := hword
  have hspace : isSpace ' ' = true := rfl
  have hbody : (' ' :: (c :: w ++ ' ' :: (name ++ ' ' :: rest))).dropWhile isSpace =
      c :: w ++ ' ' :: (name ++ ' ' :: rest) := by
    rw [List.dropWhile_cons_of_pos hspace, List.cons_append, List.dropWhile_cons_of_neg (by simp [hc])]
  have hname' : ∀ c ∈ name, (!isSpace c) = true := fun c hc => by simp [isSpace_nameChar (hname.chars c hc)]
  have hne : name ≠ [] := by
    intro h
    have := hname.start
    simp [h] at this
  have hoperands : (' ' :: (name ++ ' ' :: rest)).dropWhile isSpace = name ++ ' ' :: rest := by
    rw [List.dropWhile_cons_of_pos hspace]
    cases hcase : name with
    | nil => exact absurd hcase hne
    | cons d n =>
      have hd : isSpace d = false := isSpace_nameChar (hname.chars d (by simp [hcase]))
      rw [List.cons_append, List.dropWhile_cons_of_neg (by simp [hd])]
  unfold matchComment
  simp only [hbody, List.drop_left, hoperands, takeWhile_append_cons hname' (show (!isSpace ' ') = false from rfl),
    dropWhile_append_cons hname' (show (!isSpace ' ') = false from rfl)]
  simp [List.takeWhile_cons_of_pos hspace, hne]

theorem parseLine_help {families : Families num} (hname : MetricName name) (hhelp : HelpText help) :
    parseLine families ("# HELP ".toList ++ name ++ ' ' :: help) =
      modify families name fun family => { family with help := help } := by
  have hline : "# HELP ".toList ++ name ++ ' ' :: help = '#' :: ' ' :: ("HELP".toList ++ ' ' :: (name ++ ' ' :: help)) := by
    simp
  obtain ⟨front, c, hlast, hc⟩ := hhelp.trimmed.last
  have htrimmed : Trimmed ("# HELP ".toList ++ name ++ ' ' :: help) :=
    ⟨⟨'#', _, hline, rfl⟩, ⟨"# HELP ".toList ++ name ++ ' ' :: front, c, by rw [hlast]; simp, hc⟩⟩
  have hmatch : matchHelp ("# HELP ".toList ++ name ++ ' ' :: help) = some (name, help) := by
    have hword : ∃ c w, "HELP".toList = c :: w ∧ isSpace c = false := ⟨'H', _, rfl, rfl⟩
    unfold matchHelp
    rw [hline, matchComment_eq hword hname]
    simp [rawValue_space hhelp.trimmed hhelp.line]
  unfold parseLine
  rw [trim_eq htrimmed]
  simp only [hmatch]
  rw [hline]
  simp

theorem parseLine_type {families : Families num} (hname : MetricName name) (hvisible : ∀ c ∈ type, isSpace c = false)
    (hne : type ≠ []) : parseLine families ("# TYPE ".toList ++ name ++ ' ' :: type) =
      modify families name fun family => { family with type := type } := by
  have hline : "# TYPE ".toList ++ name ++ ' ' :: type = '#' :: ' ' :: ("TYPE".toList ++ ' ' :: (name ++ ' ' :: type)) := by
    simp
  have htype : Trimmed type := by
    refine ⟨?_, ⟨_, _, (List.dropLast_append_getLast hne).symm, hvisible _ (List.getLast_mem hne)⟩⟩
    cases hcase : type with
    | nil => exact absurd hcase hne
    | cons c rest => exact ⟨c, rest, rfl, hvisible c (by simp [hcase])⟩
  obtain ⟨front, c, hlast, hc⟩ := htype.last
  have htrimmed : Trimmed ("# TYPE ".toList ++ name ++ ' ' :: type) :=
    ⟨⟨'#', _, hline, rfl⟩, ⟨"# TYPE ".toList ++ name ++ ' ' :: front, c, by rw [hlast]; simp, hc⟩⟩
  have hhelp : matchHelp ("# TYPE ".toList ++ name ++ ' ' :: type) = none := by
    have hcomment : matchComment "HELP".toList ("# TYPE ".toList ++ name ++ ' ' :: type) = none := by
      have hbody : (' ' :: ("TYPE".toList ++ ' ' :: (name ++ ' ' :: type))).dropWhile isSpace =
          "TYPE".toList ++ ' ' :: (name ++ ' ' :: type) := rfl
      rw [hline]
      simp only [matchComment, hbody]
      simp
    simp only [matchHelp, hcomment]
  have hterminator : ∀ c ∈ type, isTerminator c = false := by
    intro c hc
    by_cases ht : isTerminator c = true
    · have := isSpace_of_isTerminator ht
      rw [hvisible c hc] at this
      cases this
    · simpa using ht
  have hmatch : matchType ("# TYPE ".toList ++ name ++ ' ' :: type) = some (name, type) := by
    have hword : ∃ c w, "TYPE".toList = c :: w ∧ isSpace c = false := ⟨'T', _, rfl, rfl⟩
    unfold matchType
    rw [hline, matchComment_eq hword hname]
    simp only [rawValue_space htype hterminator]
    rw [if_neg (by simpa using fun c hc => hvisible c hc)]
  unfold parseLine
  rw [trim_eq htrimmed]
  simp only [hhelp, hmatch]
  rw [hline]
  simp

end

end Paymaster.Prometheus
