import Paymaster.Lib.HexText
import Paymaster.Lib.PlainText

/-!
# Trace contexts

A request may carry a `traceparent` header, which names a trace, the caller's
span and whether the trace is sampled. The spans of this service go into that
trace, the one in the other; a header that is not well formed begins a new one.
-/

namespace Paymaster.Tracing

open PlainText HexText

abbrev Text := List Char

structure SpanContext where
  traceId : Text
  spanId : Text
  sampled : Bool
deriving DecidableEq

def invalidTraceId : Text := List.replicate 32 '0'

def invalidSpanId : Text := List.replicate 16 '0'

/-- `toLowerCase`, of the characters that a header can have. -/
def toLowerCase (c : Char) : Char :=
  if (65 ≤ c.toNat && c.toNat ≤ 90) || (0xc0 ≤ c.toNat && c.toNat ≤ 0xde && c.toNat ≠ 0xd7) then Char.ofNat (c.toNat + 32)
  else c

/-! ## The header -/

structure TraceparentFields where
  version : Text
  traceId : Text
  spanId : Text
  flags : Text

def takeHex (n : Nat) (text : Text) : Option (Text × Text) :=
  if (text.take n).length = n ∧ (text.take n).all isHex = true then some (text.take n, text.drop n) else none

def takeDash : Text → Option Text
  | '-' :: text => some text
  | _ => none

def matchTraceparent (text : Text) : Option TraceparentFields := do
  let (version, text) ← takeHex 2 text
  let text ← takeDash text
  let (traceId, text) ← takeHex 32 text
  let text ← takeDash text
  let (spanId, text) ← takeHex 16 text
  let text ← takeDash text
  let (flags, text) ← takeHex 2 text
  if text = [] then some ⟨version, traceId, spanId, flags⟩ else none

/-- A version above `00` may have more behind the first four fields. -/
def candidate (value : Text) : Text :=
  if 55 < value.length ∧ value[55]? = some '-' ∧ ¬ "00-".toList <+: value then value.take 55 else value

def isSampled (flags : Text) : Bool := (Numeral.read 16 flags).any fun n => n % 2 = 1

def parseTraceparent (header : Option Text) : Option SpanContext := do
  let header ← header
  let fields ← matchTraceparent (candidate ((trim header).map toLowerCase))
  if fields.version = "ff".toList then none
  else if fields.traceId = invalidTraceId ∨ fields.spanId = invalidSpanId then none
  else some ⟨fields.traceId, fields.spanId, isSampled fields.flags⟩

def formatTraceparent (context : SpanContext) : Text :=
  "00-".toList ++ context.traceId ++ '-' :: context.spanId ++ '-' :: (if context.sampled then "01" else "00").toList

/-! ## What is accepted -/

def TraceparentFields.text (fields : TraceparentFields) : Text :=
  fields.version ++ '-' :: fields.traceId ++ '-' :: fields.spanId ++ '-' :: fields.flags

def IsHex (n : Nat) (text : Text) : Prop := text.length = n ∧ ∀ c ∈ text, isHex c = true

structure TraceparentFields.Shaped (fields : TraceparentFields) : Prop where
  version : IsHex 2 fields.version
  traceId : IsHex 32 fields.traceId
  spanId : IsHex 16 fields.spanId
  flags : IsHex 2 fields.flags

section
variable {text rest : Text} {n : Nat} {c : Char} {fields : TraceparentFields} {context : SpanContext}

theorem takeHex_append (h : IsHex n text) : takeHex n (text ++ rest) = some (text, rest) := by
  have htake : (text ++ rest).take n = text := by rw [← h.1, List.take_left]
  have hdrop : (text ++ rest).drop n = rest := by rw [← h.1, List.drop_left]
  unfold takeHex
  rw [htake, hdrop, if_pos]
  exact ⟨h.1, List.all_eq_true.mpr h.2⟩

theorem takeHex_eq_some {taken left : Text} (h : takeHex n text = some (taken, left)) :
    IsHex n taken ∧ text = taken ++ left := by
  unfold takeHex at h
  by_cases hhex : (text.take n).length = n ∧ (text.take n).all isHex = true
  · rw [if_pos hhex] at h
    cases h
    exact ⟨⟨hhex.1, List.all_eq_true.mp hhex.2⟩, (List.take_append_drop n text).symm⟩
  · rw [if_neg hhex] at h
    cases h

theorem takeDash_eq_some (h : takeDash text = some rest) : text = '-' :: rest := by
  unfold takeDash at h
  split at h
  · cases h
    rfl
  · cases h

theorem matchTraceparent_text (h : fields.Shaped) : matchTraceparent fields.text = some fields := by
  have hflags : takeHex 2 fields.flags = some (fields.flags, []) := by
    have hempty : takeHex 2 (fields.flags ++ []) = some (fields.flags, []) := takeHex_append h.flags
    rwa [List.append_nil] at hempty
  unfold matchTraceparent TraceparentFields.text
  simp only [List.append_assoc, List.cons_append, takeHex_append h.version, takeHex_append h.traceId,
    takeHex_append h.spanId, hflags, takeDash, Option.bind_eq_bind, Option.bind_some]
  rfl

theorem matchTraceparent_eq_some (h : matchTraceparent text = some fields) : fields.Shaped ∧ text = fields.text := by
  unfold matchTraceparent at h
  simp only [Option.bind_eq_bind, Option.bind_eq_some_iff, Prod.exists] at h
  obtain ⟨version, t₁, hversion, t₂, hdash₁, traceId, t₃, htrace, t₄, hdash₂, spanId, t₅, hspan, t₆, hdash₃, flags, t₇,
    hflags, hend⟩ := h
  by_cases hnil : t₇ = []
  · rw [if_pos hnil] at hend
    cases hend
    obtain ⟨hversion, htext⟩ := takeHex_eq_some hversion
    obtain ⟨htrace, ht₂⟩ := takeHex_eq_some htrace
    obtain ⟨hspan, ht₄⟩ := takeHex_eq_some hspan
    obtain ⟨hflags, ht₆⟩ := takeHex_eq_some hflags
    refine ⟨⟨hversion, htrace, hspan, hflags⟩, ?_⟩
    rw [htext, takeDash_eq_some hdash₁, ht₂, takeDash_eq_some hdash₂, ht₄, takeDash_eq_some hdash₃, ht₆, hnil]
    simp [TraceparentFields.text]
  · rw [if_neg hnil] at hend
    cases hend

theorem length_text (h : fields.Shaped) : fields.text.length = 55 := by
  unfold TraceparentFields.text
  simp [h.version.1, h.traceId.1, h.spanId.1, h.flags.1]

/-- The first three characters are the version and a dash. -/
theorem prefix_text_iff (h : fields.Shaped) : "00-".toList <+: fields.text ++ rest ↔ fields.version = "00".toList := by
  obtain ⟨a, b, hversion⟩ := List.length_eq_two.mp h.version.1
  unfold TraceparentFields.text
  rw [hversion]
  simp [List.cons_prefix_cons, eq_comm]

def Extra (fields : TraceparentFields) (extra : Text) : Prop :=
  extra = [] ∨ (fields.version ≠ "00".toList ∧ ∃ more, extra = '-' :: more)

theorem candidate_text {extra : Text} (h : fields.Shaped) (hextra : Extra fields extra) :
    candidate (fields.text ++ extra) = fields.text := by
  have hlength := length_text h
  unfold candidate
  rcases hextra with rfl | ⟨hversion, more, rfl⟩
  · rw [List.append_nil, if_neg]
    intro hlong
    omega
  · rw [if_pos, ← hlength, List.take_left]
    refine ⟨by simp [hlength], ?_, fun hprefix => hversion ((prefix_text_iff h).mp hprefix)⟩
    rw [← hlength, List.getElem?_append_right (Nat.le_refl _), Nat.sub_self]
    rfl

theorem candidate_eq_text {value : Text} (h : fields.Shaped) (hvalue : candidate value = fields.text) :
    ∃ extra, value = fields.text ++ extra ∧ Extra fields extra := by
  unfold candidate at hvalue
  by_cases hlong : 55 < value.length ∧ value[55]? = some '-' ∧ ¬ "00-".toList <+: value
  · obtain ⟨hlength, hdash, hprefix⟩ := hlong
    rw [if_pos ⟨hlength, hdash, hprefix⟩] at hvalue
    have hsplit : value = fields.text ++ value.drop 55 := by rw [← hvalue, List.take_append_drop]
    refine ⟨value.drop 55, hsplit, .inr ⟨?_, value.drop 56, ?_⟩⟩
    · intro hversion
      apply hprefix
      rw [hsplit]
      exact (prefix_text_iff h).mpr hversion
    · obtain ⟨hlt, hget⟩ := List.getElem?_eq_some_iff.mp hdash
      rw [List.drop_eq_getElem_cons hlt, hget]
  · rw [if_neg hlong] at hvalue
    exact ⟨[], by rw [hvalue, List.append_nil], .inl rfl⟩

/-- A header is accepted exactly if it is, but for the case of its letters, two digits of a version
other than `ff`, two ids that are not zero and two digits of flags; later versions may add to it. -/
theorem parseTraceparent_iff {header : Text} : parseTraceparent (some header) = some context ↔
    ∃ fields extra, TraceparentFields.Shaped fields ∧ Extra fields extra ∧
      (trim header).map toLowerCase = fields.text ++ extra ∧ fields.version ≠ "ff".toList ∧
      fields.traceId ≠ invalidTraceId ∧ fields.spanId ≠ invalidSpanId ∧
      context = ⟨fields.traceId, fields.spanId, isSampled fields.flags⟩ := by
  constructor
  · intro h
    simp only [parseTraceparent, Option.bind_eq_bind, Option.bind_some] at h
    obtain ⟨fields, hmatch, hchecks⟩ := Option.bind_eq_some_iff.mp h
    obtain ⟨hshaped, htext⟩ := matchTraceparent_eq_some hmatch
    obtain ⟨extra, hvalue, hextra⟩ := candidate_eq_text hshaped htext
    by_cases hversion : fields.version = "ff".toList
    · rw [if_pos hversion] at hchecks
      cases hchecks
    · rw [if_neg hversion] at hchecks
      by_cases hids : fields.traceId = invalidTraceId ∨ fields.spanId = invalidSpanId
      · rw [if_pos hids] at hchecks
        cases hchecks
      · rw [if_neg hids] at hchecks
        obtain ⟨htrace, hspan⟩ := not_or.mp hids
        exact ⟨fields, extra, hshaped, hextra, hvalue, hversion, htrace, hspan, (Option.some.inj hchecks).symm⟩
  · intro h
    obtain ⟨fields, extra, hshaped, hextra, hvalue, hversion, htrace, hspan, rfl⟩ := h
    simp only [parseTraceparent, Option.bind_eq_bind, Option.bind_some, hvalue, candidate_text hshaped hextra,
      matchTraceparent_text hshaped]
    rw [if_neg hversion, if_neg (not_or.mpr ⟨htrace, hspan⟩)]

end

/-! ## What is sent on -/

structure SpanContext.Valid (context : SpanContext) : Prop where
  traceId : IsHex 32 context.traceId
  spanId : IsHex 16 context.spanId
  traceId_ne : context.traceId ≠ invalidTraceId
  spanId_ne : context.spanId ≠ invalidSpanId

def SpanContext.traceparent (context : SpanContext) : TraceparentFields :=
  ⟨"00".toList, context.traceId, context.spanId, (if context.sampled then "01" else "00").toList⟩

section
variable {c : Char} {fields : TraceparentFields} {context : SpanContext}

theorem text_traceparent (context : SpanContext) : context.traceparent.text = formatTraceparent context := by
  simp [TraceparentFields.text, SpanContext.traceparent, formatTraceparent]

theorem shaped_traceparent (h : context.Valid) : context.traceparent.Shaped := by
  have hflags : IsHex 2 context.traceparent.flags := by
    unfold SpanContext.traceparent
    cases context.sampled <;> exact ⟨rfl, by simp [isHex]⟩
  exact ⟨⟨rfl, by simp [SpanContext.traceparent, isHex]⟩, h.traceId, h.spanId, hflags⟩

theorem isSampled_traceparent (context : SpanContext) : isSampled context.traceparent.flags = context.sampled := by
  have hflags : ∀ sampled : Bool, isSampled (if sampled then "01" else "00").toList = sampled := by decide
  exact hflags context.sampled

theorem toLowerCase_of_isHex (h : isHex c = true) : toLowerCase c = c := by
  unfold isHex at h
  unfold toLowerCase
  simp only [Bool.or_eq_true, Bool.and_eq_true, decide_eq_true_eq] at h ⊢
  rw [if_neg]
  omega

theorem isSpace_of_isHex (h : isHex c = true) : isSpace c = false := by
  by_contra hspace
  have hrange := toNat_of_isSpace (by simpa using hspace)
  unfold isHex at h
  simp only [Bool.or_eq_true, Bool.and_eq_true, decide_eq_true_eq] at h
  omega

/-- A header that is formatted is in lower case, without white space around it. -/
theorem formatted_kept (h : fields.Shaped) : (trim fields.text).map toLowerCase = fields.text := by
  have hhex : ∀ c ∈ fields.text, isHex c = true ∨ c = '-' := by
    intro c hc
    unfold TraceparentFields.text at hc
    simp only [List.mem_append, List.mem_cons] at hc
    rcases hc with ((hc | hc | hc) | hc | hc) | hc | hc
    all_goals first
      | exact .inr hc
      | exact .inl (h.version.2 c hc)
      | exact .inl (h.traceId.2 c hc)
      | exact .inl (h.spanId.2 c hc)
      | exact .inl (h.flags.2 c hc)
  have hvisible : ∀ c ∈ fields.text, isSpace c = false := by
    intro c hc
    rcases hhex c hc with hdigit | rfl
    · exact isSpace_of_isHex hdigit
    · decide
  have hne : fields.text ≠ [] := by
    intro hnil
    have hlength := length_text h
    rw [hnil] at hlength
    cases hlength
  have htrimmed : Trimmed fields.text := by
    obtain ⟨c, rest, htext⟩ := List.exists_cons_of_ne_nil hne
    refine ⟨⟨c, rest, htext, hvisible c (htext ▸ List.mem_cons_self)⟩, ?_⟩
    exact ⟨_, _, (List.dropLast_append_getLast hne).symm, hvisible _ (List.getLast_mem hne)⟩
  rw [trim_eq htrimmed]
  conv_rhs => rw [← List.map_id fields.text]
  apply List.map_congr_left
  intro c hc
  rcases hhex c hc with hdigit | rfl
  · exact toLowerCase_of_isHex hdigit
  · decide

theorem parse_format (h : context.Valid) : parseTraceparent (some (formatTraceparent context)) = some context := by
  have hshaped := shaped_traceparent h
  apply parseTraceparent_iff.mpr
  refine ⟨context.traceparent, [], hshaped, .inl rfl, ?_, by simp [SpanContext.traceparent], h.traceId_ne, h.spanId_ne, ?_⟩
  · rw [← text_traceparent, formatted_kept hshaped, List.append_nil]
  · rw [isSampled_traceparent]
    rfl

theorem valid_of_parse {header : Option Text} (h : parseTraceparent header = some context) : context.Valid := by
  cases header with
  | none => cases h
  | some header =>
    obtain ⟨fields, extra, hshaped, -, -, -, htrace, hspan, rfl⟩ := parseTraceparent_iff.mp h
    exact ⟨hshaped.traceId, hshaped.spanId, htrace, hspan⟩

end

/-! ## Spans -/

/-- What is drawn for a span: the bytes of its ids, and the number that a new trace is sampled by. -/
structure Draw where
  traceBytes : List (Fin 256)
  spanBytes : List (Fin 256)
  belowRatio : Bool
  traceBytes_length : traceBytes.length = 16
  spanBytes_length : spanBytes.length = 8

/-- `randomBytes(16).toString("hex")`. -/
def Draw.newTraceId (draw : Draw) : Text := ofBytes draw.traceBytes

def Draw.newSpanId (draw : Draw) : Text := ofBytes draw.spanBytes

def Draw.Nonzero (draw : Draw) : Prop := draw.newTraceId ≠ invalidTraceId ∧ draw.newSpanId ≠ invalidSpanId

instance (draw : Draw) : Decidable draw.Nonzero := inferInstanceAs (Decidable (_ ∧ _))

structure Span where
  context : SpanContext
  parentSpanId : Option Text
deriving DecidableEq

def startSpan (parent : Option SpanContext) (draw : Draw) : Span :=
  let sampled := (parent.map SpanContext.sampled).getD draw.belowRatio
  { context :=
      { traceId := (parent.map SpanContext.traceId).getD draw.newTraceId
        spanId := draw.newSpanId
        sampled }
    -- an `UnrecordedSpan` has a context and nothing else
    parentSpanId := if sampled then parent.map SpanContext.spanId else none }

/-- What a span calls, one after the other: in the same process, or another
service with a `traceparent`. -/
inductive Calls
  | done
  | call (remote : Bool) (draw : Draw) (within next : Calls)

def Calls.draws : Calls → List Draw
  | done => []
  | call _ draw within next => draw :: within.draws ++ next.draws

/-- A span, and the context of the span that made the call it was started for. -/
structure Opened where
  opener : SpanContext
  span : Span

def Calls.spans (current : SpanContext) : Calls → List Opened
  | done => []
  | call remote draw within next =>
    let parent := if remote then parseTraceparent (some (formatTraceparent current)) else some current
    let span := startSpan parent draw
    ⟨current, span⟩ :: within.spans span.context ++ next.spans current

def requestSpan (header : Option Text) (draw : Draw) : Span := startSpan (parseTraceparent header) draw

/-- In the trace of `root`, below the span that opened it, which is the one of
`root` or among the `others`. -/
structure Opened.Joins (opened : Opened) (root : SpanContext) (others : List Opened) : Prop where
  traceId : opened.span.context.traceId = root.traceId
  sampled : opened.span.context.sampled = root.sampled
  parent : opened.span.parentSpanId = if root.sampled then some opened.opener.spanId else none
  opener : opened.opener = root ∨ ∃ other ∈ others, other.span.context = opened.opener
  sent : parseTraceparent (some (formatTraceparent opened.span.context)) = some opened.span.context

section
variable {draw : Draw} {context root : SpanContext} {header : Option Text} {calls : Calls} {opened : Opened} {others : List Opened}

theorem isHex_newTraceId (draw : Draw) : IsHex 32 draw.newTraceId :=
  ⟨by rw [Draw.newTraceId, length_ofBytes, draw.traceBytes_length], fun _ hc => isHex_ofBytes hc⟩

theorem isHex_newSpanId (draw : Draw) : IsHex 16 draw.newSpanId :=
  ⟨by rw [Draw.newSpanId, length_ofBytes, draw.spanBytes_length], fun _ hc => isHex_ofBytes hc⟩

theorem valid_startSpan {parent : Option SpanContext} (h : draw.Nonzero) (hparent : ∀ p ∈ parent, p.Valid) :
    (startSpan parent draw).context.Valid := by
  refine ⟨?_, isHex_newSpanId draw, ?_, h.2⟩
  · cases parent with
    | none => exact isHex_newTraceId draw
    | some p => exact (hparent p rfl).traceId
  · cases parent with
    | none => exact h.1
    | some p => exact (hparent p rfl).traceId_ne

theorem joins_mono {others' : List Opened} (h : opened.Joins root others) (hsub : others ⊆ others') :
    opened.Joins root others' :=
  ⟨h.traceId, h.sampled, h.parent, h.opener.imp_right fun ⟨other, hother, hcontext⟩ => ⟨other, hsub hother, hcontext⟩,
    h.sent⟩

theorem startSpan_joins {opener : SpanContext} (htrace : opener.traceId = root.traceId)
    (hsampled : opener.sampled = root.sampled) (hopener : opener = root ∨ ∃ other ∈ others, other.span.context = opener)
    (hvalid : (startSpan (some opener) draw).context.Valid) : Opened.Joins ⟨opener, startSpan (some opener) draw⟩ root others :=
  ⟨htrace, hsampled, hsampled ▸ rfl, hopener, parse_format hvalid⟩

/-- Below a span of a trace, every span joins the trace. -/
theorem spans_join (others : List Opened) (hdraws : ∀ draw ∈ calls.draws, draw.Nonzero) : ∀ {current : SpanContext}, current.Valid →
    current.traceId = root.traceId → current.sampled = root.sampled →
    (current = root ∨ ∃ other ∈ others, other.span.context = current) →
    ∀ opened ∈ calls.spans current, opened.Joins root (others ++ calls.spans current) := by
  induction calls generalizing others with
  | done =>
    intro current _ _ _ _ opened hopened
    cases hopened
  | call remote draw within next ihwithin ihnext =>
    intro current hvalid htrace hsampled hcurrent opened hopened
    have hparent : (if remote then parseTraceparent (some (formatTraceparent current)) else some current) = some current := by
      cases remote with
      | true => exact parse_format hvalid
      | false => rfl
    simp only [Calls.spans, hparent] at hopened ⊢
    have hdraw : draw.Nonzero := hdraws draw (by simp [Calls.draws])
    have hinner : (startSpan (some current) draw).context.Valid :=
      valid_startSpan hdraw fun p hp => Option.some.inj hp ▸ hvalid
    rcases List.mem_append.mp hopened with hopened | hopened
    · rcases List.mem_cons.mp hopened with rfl | hopened
      · exact joins_mono (startSpan_joins htrace hsampled hcurrent hinner) (List.subset_append_left _ _)
      · -- the spans within have the new span as their `current`, which is among the others from here on
        have hjoins := ihwithin (others ++ [⟨current, startSpan (some current) draw⟩])
          (fun d hd => hdraws d (by simp [Calls.draws, hd])) hinner htrace hsampled
          (.inr ⟨_, List.mem_append_right _ List.mem_cons_self, rfl⟩) opened hopened
        apply joins_mono hjoins
        intro x hx
        simp only [List.mem_append, List.mem_cons, List.not_mem_nil, or_false] at hx ⊢
        tauto
    · have hjoins := ihnext others (fun d hd => hdraws d (by simp [Calls.draws, hd])) hvalid htrace hsampled hcurrent opened hopened
      apply joins_mono hjoins
      intro x hx
      simp only [List.mem_append] at hx ⊢
      tauto

/-- The spans of a request are all in the trace of its first, over any calls in the process and to other
services, each below the span that opened it; and with an accepted header it is the caller's trace, sampled
as the caller has it. -/
theorem trace_kept (hdraw : draw.Nonzero) (hdraws : ∀ draw ∈ calls.draws, draw.Nonzero) :
    (∀ opened ∈ calls.spans (requestSpan header draw).context,
      opened.Joins (requestSpan header draw).context (calls.spans (requestSpan header draw).context)) ∧
      (∀ context, parseTraceparent header = some context → (requestSpan header draw).context.traceId = context.traceId ∧
        (requestSpan header draw).context.sampled = context.sampled ∧
        (requestSpan header draw).parentSpanId = if context.sampled then some context.spanId else none) ∧
      parseTraceparent (some (formatTraceparent (requestSpan header draw).context)) =
        some (requestSpan header draw).context := by
  have hvalid : (requestSpan header draw).context.Valid := valid_startSpan hdraw fun p hp => valid_of_parse hp
  refine ⟨spans_join [] hdraws hvalid rfl rfl (.inl rfl), ?_, parse_format hvalid⟩
  intro context hcontext
  rw [requestSpan, hcontext]
  exact ⟨rfl, rfl, rfl⟩

def drawOf (byte : Fin 256) : Draw :=
  ⟨List.replicate 16 byte, List.replicate 8 byte, true, List.length_replicate, List.length_replicate⟩

def walletHeader : Text := " 00-4BF92F3577B34DA6A3CE929D0E0E4736-00f067aa0ba902b7-00".toList

def walletCalls : Calls := .call true (drawOf (2#8).toFin) (.call false (drawOf (3#8).toFin) .done .done) .done

theorem trace_kept_wallet :
    (walletCalls.spans (requestSpan (some walletHeader) (drawOf 1)).context).length = 2 ∧
      (∀ opened ∈ walletCalls.spans (requestSpan (some walletHeader) (drawOf 1)).context,
        opened.Joins (requestSpan (some walletHeader) (drawOf 1)).context
          (walletCalls.spans (requestSpan (some walletHeader) (drawOf 1)).context)) ∧
      (requestSpan (some walletHeader) (drawOf 1)).context.sampled = false := by
  have hdraws : ∀ draw ∈ walletCalls.draws, draw.Nonzero := by
    intro draw hdraw
    simp only [walletCalls, Calls.draws, List.append_nil, List.mem_cons, List.not_mem_nil, or_false] at hdraw
    rcases hdraw with rfl | rfl <;> decide +kernel
  have hdraw : (drawOf 1).Nonzero := by decide +kernel
  obtain ⟨hjoin, hcaller, -⟩ := @trace_kept _ (some walletHeader) _ hdraw hdraws
  have hheader : (parseTraceparent (some walletHeader)).isSome = true ∧
      (parseTraceparent (some walletHeader)).any SpanContext.sampled = false := by
    decide +kernel
  obtain ⟨context, hcontext⟩ := Option.isSome_iff_exists.mp hheader.1
  have hsampled := hheader.2
  rw [hcontext] at hsampled
  exact ⟨by decide +kernel, hjoin, (hcaller context hcontext).2.1.trans hsampled⟩

end

end Paymaster.Tracing
