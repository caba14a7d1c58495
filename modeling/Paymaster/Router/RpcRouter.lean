import Paymaster.Backend.JsonText

/-!
# The RPC router

Tracing calls go to the one upstream that serves them, all others to another. A
batch is split over the two lanes and put together again by the ids of the
responses.
-/

namespace Paymaster

inductive Lane
  | trace
  | other
deriving DecidableEq

def isTraceMethod : Option Json → Bool
  | some (.str method) => "debug_".toList.isPrefixOf method.toList || "trace_".toList.isPrefixOf method.toList
  | _ => false

def laneOf (call : Json) : Lane := if isTraceMethod (call.property "method") then .trace else .other

/-! ## Forwarding -/

/-- What becomes of a request to an upstream. An empty body is `null`. -/
inductive PostResult
  | response (status : Nat) (json : Json)
  | failed (message : String)

inductive RouterError
  | upstream (message : String)
  /-- Of the spread of a value that is not iterable. -/
  | notIterable

/-- The rest of the attempts; only the last may throw what it ran into. -/
def forwardFrom (post : Nat → PostResult) : Nat → Nat → Except RouterError Json
  | _, 0 => .error (.upstream "upstream exhausted")
  | attempt, left + 1 =>
    match post attempt with
    | .response status json =>
      if status = 429 ∨ status = 503 then forwardFrom post (attempt + 1) left else .ok json
    | .failed message => if attempt = 4 then .error (.upstream message) else forwardFrom post (attempt + 1) left

def forward (post : Nat → PostResult) : Except RouterError Json := forwardFrom post 0 5

/-! ## Batches -/

/-- What `[...(json ?? [])]` is. -/
def spread : Json → Except RouterError (List Json)
  | .null => .ok []
  | .arr items => .ok items
  | .str s => .ok (s.toList.map fun c => .str (String.singleton c))
  | _ => .error .notIterable

/-- Whether a map has one entry for two keys. Two objects are not the same one. -/
def sameKey : Option Json → Option Json → Bool
  | none, none => true
  | some .null, some .null => true
  | some (.bool a), some (.bool b) => a = b
  | some (.num a), some (.num b) => a = b
  | some (.str a), some (.str b) => a = b
  | _, _ => false

def mergedGet (responses : List Json) (key : Option Json) : Option Json :=
  responses.reverse.find? fun response => sameKey (response.property "id") key

def noResponse (call : Json) : Json :=
  .obj [("jsonrpc", .str "2.0"), ("id", (call.property "id").getD .null),
    ("error", .obj [("code", .num (-32603)), ("message", .str "no response for id")])]

def entryFor (responses : List Json) (call : Json) : Json :=
  match mergedGet responses (call.property "id") with
  | none => noResponse call
  | some .null => noResponse call
  | some response => response

/-- `Promise.all` of the two lanes: the failure that comes first is thrown. -/
def bothLanes (otherFirst : Bool) : Except RouterError Json → Except RouterError Json → Except RouterError (Json × Json)
  | .ok traceRes, .ok otherRes => .ok (traceRes, otherRes)
  | .error e, .ok _ => .error e
  | .ok _, .error e => .error e
  | .error e, .error e' => .error (if otherFirst then e' else e)

def askLane (posts : Lane → Nat → PostResult) (calls : List Json) (lane : Lane) : Except RouterError Json :=
  if (calls.filter fun call => laneOf call = lane).isEmpty then .ok (.arr []) else forward (posts lane)

def handle (posts : Lane → Nat → PostResult) (otherFirst : Bool) : Json → Except RouterError Json
  | .arr calls => do
    let (traceRes, otherRes) ← bothLanes otherFirst (askLane posts calls .trace) (askLane posts calls .other)
    let traceItems ← spread traceRes
    let otherItems ← spread otherRes
    .ok (.arr (calls.map (entryFor (traceItems ++ otherItems))))
  | call => forward (posts (laneOf call))

/-! ## What a lane answers -/

def PostResult.Retried : PostResult → Prop
  | .response status _ => status = 429 ∨ status = 503
  | .failed _ => True

/-- The first of the five attempts that is not tried again brings the answer. -/
def Answers (post : Nat → PostResult) (json : Json) : Prop :=
  ∃ k < 5, (∀ j < k, (post j).Retried) ∧ ∃ status, post k = .response status json ∧ status ≠ 429 ∧ status ≠ 503

def Gave (post : Nat → PostResult) (call response : Json) : Prop :=
  ∃ items, Answers post (.arr items) ∧ response ∈ items ∧ sameKey (response.property "id") (call.property "id") = true

/-- No lane answers for an id that the other one was asked. -/
def AnswersOwn (posts : Lane → Nat → PostResult) (calls : List Json) : Prop :=
  ∀ lane items, Answers (posts lane) (.arr items) → ∀ response ∈ items, ∀ call ∈ calls,
    laneOf call ≠ lane → response.property "id" ≠ call.property "id"

structure HasIds (calls : List Json) : Prop where
  present : ∀ call ∈ calls, call.property "id" ≠ none
  notNull : ∀ call ∈ calls, call.property "id" ≠ some .null
  distinct : (calls.map fun call => call.property "id").Nodup

/-- Entry by entry: the id, and the response of the request's lane, or an error if it gave none. -/
def Reassembled (posts : Lane → Nat → PostResult) (calls entries : List Json) : Prop :=
  List.Forall₂ (fun call entry => entry.property "id" = call.property "id" ∧
    (Gave (posts (laneOf call)) call entry ∨
      (¬ ∃ response, Gave (posts (laneOf call)) call response) ∧ entry = noResponse call)) calls entries

def Json.isIterable : Json → Bool
  | .null | .arr _ | .str _ => true
  | _ => false

section

variable {post : Nat → PostResult} {posts : Lane → Nat → PostResult} {otherFirst : Bool} {calls entries items : List Json}
  {json call response : Json} {key key' : Option Json}

theorem retried_or_answered (result : PostResult) :
    result.Retried ∨ ∃ status json, result = .response status json ∧ status ≠ 429 ∧ status ≠ 503 := by
  cases result with
  | failed message => exact .inl trivial
  | response status json =>
    by_cases hretry : status = 429 ∨ status = 503
    · exact .inl hretry
    · rw [not_or] at hretry
      exact .inr ⟨status, json, rfl, hretry⟩

theorem forwardFrom_retried {attempt left : Nat} (hall : attempt + (left + 1) = 5) (h : (post attempt).Retried) :
    forwardFrom post attempt (left + 1) = .ok json ↔ forwardFrom post (attempt + 1) left = .ok json := by
  rw [forwardFrom]
  cases hpost : post attempt with
  | response status answer =>
    rw [hpost] at h
    exact (if_pos h).congr_left
  | failed message =>
    dsimp only
    split
    · have hnone : left = 0 := by omega
      subst hnone
      exact iff_of_false nofun nofun
    · rfl

theorem forwardFrom_ok : ∀ {left attempt : Nat}, attempt + left = 5 → (forwardFrom post attempt left = .ok json ↔
    ∃ k, attempt ≤ k ∧ k < 5 ∧ (∀ j, attempt ≤ j → j < k → (post j).Retried) ∧
      ∃ status, post k = .response status json ∧ status ≠ 429 ∧ status ≠ 503)
  | 0, attempt, hall => by
    refine iff_of_false nofun ?_
    rintro ⟨k, hle, hlt, -⟩
    omega
  | left + 1, attempt, hall => by
    rcases retried_or_answered (post attempt) with hretried | ⟨status, answer, hpost, hstatus⟩
    · rw [forwardFrom_retried hall hretried, forwardFrom_ok (by omega)]
      constructor
      · rintro ⟨k, hle, hlt, hbefore, hk⟩
        refine ⟨k, by omega, hlt, fun j hj hjk => ?_, hk⟩
        rcases Nat.eq_or_lt_of_le hj with rfl | hj
        · exact hretried
        · exact hbefore j hj hjk
      · rintro ⟨k, hle, hlt, hbefore, status, hk, hstatus⟩
        have hne : k ≠ attempt := by
          rintro rfl
          rw [hk] at hretried
          exact hretried.elim hstatus.1 hstatus.2
        exact ⟨k, by omega, hlt, fun j hj hjk => hbefore j (by omega) hjk, status, hk, hstatus⟩
    · rw [forwardFrom, hpost]
      dsimp only
      rw [if_neg (not_or.mpr hstatus), Except.ok.injEq]
      constructor
      · rintro rfl
        exact ⟨attempt, Nat.le_refl _, by omega, fun j hj hjk => absurd hjk (Nat.not_lt.mpr hj), status, hpost, hstatus⟩
      · rintro ⟨k, hle, hlt, hbefore, status', hk, -⟩
        have hfirst : k = attempt := by
          by_contra hne
          have hretried := hbefore attempt (Nat.le_refl _) (by omega)
          rw [hpost] at hretried
          exact hretried.elim hstatus.1 hstatus.2
        rw [hfirst, hpost] at hk
        cases hk
        rfl

theorem forward_ok : forward post = .ok json ↔ Answers post json := by
  unfold forward Answers
  rw [forwardFrom_ok rfl]
  simp only [Nat.zero_le, true_and, true_implies]

/-! ## Merging -/

theorem sameKey_eq (h : sameKey key key' = true) : key = key' := by
  unfold sameKey at h
  split at h
  · rfl
  · rfl
  · rw [of_decide_eq_true h]
  · rw [of_decide_eq_true h]
  · rw [of_decide_eq_true h]
  · cases h

theorem spread_eq (h : json.isIterable = true) : ∃ items, spread json = .ok items ∧
    ∀ response ∈ items, response.property "id" ≠ none → json = .arr items := by
  unfold Json.isIterable at h
  split at h
  · exact ⟨[], rfl, nofun⟩
  · exact ⟨_, rfl, fun _ _ _ => rfl⟩
  · refine ⟨_, rfl, fun response hmem hid => ?_⟩
    obtain ⟨c, -, rfl⟩ := List.mem_map.mp hmem
    exact absurd rfl hid
  · cases h

theorem isIterable_of_spread (h : spread json = .ok items) : json.isIterable = true := by
  unfold spread at h
  split at h
  · rfl
  · rfl
  · rfl
  · cases h

theorem askLane_of_none {lane : Lane} (h : ¬ ∃ call ∈ calls, laneOf call = lane) :
    askLane posts calls lane = .ok (.arr []) := by
  have hnone : (calls.filter fun call => laneOf call = lane) = [] := by
    rw [List.filter_eq_nil_iff]
    intro call hmem hlane
    exact h ⟨call, hmem, of_decide_eq_true hlane⟩
  unfold askLane
  rw [hnone]
  rfl

theorem askLane_of_asked {lane : Lane} (h : ∃ call ∈ calls, laneOf call = lane) :
    askLane posts calls lane = forward (posts lane) := by
  obtain ⟨call, hmem, hlane⟩ := h
  have hsome : (calls.filter fun call => laneOf call = lane) ≠ [] :=
    List.ne_nil_of_mem (List.mem_filter.mpr ⟨hmem, decide_eq_true hlane⟩)
  unfold askLane
  rw [List.isEmpty_eq_false_iff.mpr hsome, if_neg Bool.false_ne_true]

theorem handle_ok : handle posts otherFirst (.arr calls) = .ok json ↔
    ∃ traceItems otherItems, (askLane posts calls .trace).bind spread = .ok traceItems ∧
      (askLane posts calls .other).bind spread = .ok otherItems ∧
      json = .arr (calls.map (entryFor (traceItems ++ otherItems))) := by
  rw [handle]
  cases htrace : askLane posts calls .trace with
  | error e =>
    refine iff_of_false ?_ ?_
    · cases askLane posts calls .other <;> exact nofun
    · rintro ⟨traceItems, otherItems, h, -⟩
      cases h
  | ok traceRes =>
    cases hother : askLane posts calls .other with
    | error e =>
      refine iff_of_false nofun ?_
      rintro ⟨traceItems, otherItems, -, h, -⟩
      cases h
    | ok otherRes =>
      show ((spread traceRes).bind (fun traceItems => (spread otherRes).bind fun otherItems =>
        .ok (.arr (calls.map (entryFor (traceItems ++ otherItems))))) : Except RouterError Json) = .ok json ↔
          ∃ traceItems otherItems, spread traceRes = .ok traceItems ∧ spread otherRes = .ok otherItems ∧
            json = .arr (calls.map (entryFor (traceItems ++ otherItems)))
      cases spread traceRes with
      | error e =>
        refine iff_of_false nofun ?_
        rintro ⟨traceItems, otherItems, h, -⟩
        cases h
      | ok traceItems =>
        cases spread otherRes with
        | error e =>
          refine iff_of_false nofun ?_
          rintro ⟨_, otherItems, -, h, -⟩
          cases h
        | ok otherItems =>
          constructor
          · intro h
            exact ⟨traceItems, otherItems, rfl, rfl, (Except.ok.inj h).symm⟩
          · rintro ⟨_, _, ⟨⟩, ⟨⟩, rfl⟩
            rfl

def LaneItems (posts : Lane → Nat → PostResult) (calls : List Json) (lane : Lane) (items : List Json) : Prop :=
  (askLane posts calls lane).bind spread = .ok items

/-- A lane that is asked gives items exactly if what it answers can be spread. -/
theorem laneItems_iff {lane : Lane} : (∃ items, LaneItems posts calls lane items) ↔
    ((∃ call ∈ calls, laneOf call = lane) → ∃ json, Answers (posts lane) json ∧ json.isIterable = true) := by
  unfold LaneItems
  by_cases hasked : ∃ call ∈ calls, laneOf call = lane
  · rw [askLane_of_asked hasked, forall_prop_of_true hasked]
    constructor
    · rintro ⟨items, h⟩
      cases hforward : forward (posts lane) with
      | error e =>
        rw [hforward] at h
        cases h
      | ok json =>
        rw [hforward] at h
        exact ⟨json, forward_ok.mp hforward, isIterable_of_spread h⟩
    · rintro ⟨json, hanswers, hiterable⟩
      obtain ⟨items, hitems, -⟩ := spread_eq hiterable
      rw [forward_ok.mpr hanswers]
      exact ⟨items, hitems⟩
  · rw [askLane_of_none hasked]
    exact iff_of_true ⟨[], rfl⟩ fun h => absurd h hasked

/-- Of the items of a lane, those with an id are in the array that it answered. -/
theorem answers_of_laneItems {lane : Lane} (h : LaneItems posts calls lane items) (hmem : response ∈ items)
    (hid : response.property "id" ≠ none) : Answers (posts lane) (.arr items) := by
  unfold LaneItems at h
  by_cases hasked : ∃ call ∈ calls, laneOf call = lane
  · rw [askLane_of_asked hasked] at h
    cases hforward : forward (posts lane) with
    | error e =>
      rw [hforward] at h
      cases h
    | ok json =>
      rw [hforward] at h
      obtain ⟨items', hitems', hall⟩ := spread_eq (isIterable_of_spread h)
      obtain rfl : items' = items := Except.ok.inj (hitems'.symm.trans h)
      rw [← hall response hmem hid]
      exact forward_ok.mp hforward
  · rw [askLane_of_none hasked] at h
    obtain rfl : [] = items := Except.ok.inj h
    cases hmem

theorem mem_laneItems_of_gave (hcall : call ∈ calls) (h : LaneItems posts calls (laneOf call) items)
    (hgave : Gave (posts (laneOf call)) call response) : response ∈ items := by
  obtain ⟨items', hanswers, hmem, -⟩ := hgave
  unfold LaneItems at h
  rw [askLane_of_asked ⟨call, hcall, rfl⟩, forward_ok.mpr hanswers] at h
  obtain rfl : items' = items := Except.ok.inj h
  exact hmem

/-- The entry of a request is its lane's, since the other lane answers for none of its ids. -/
theorem entryFor_reassembled {responses : List Json} (hid : call.property "id" ≠ none)
    (hmine : ∀ response ∈ responses, sameKey (response.property "id") (call.property "id") = true →
      Gave (posts (laneOf call)) call response)
    (hall : ∀ response, Gave (posts (laneOf call)) call response → response ∈ responses) :
    (entryFor responses call).property "id" = call.property "id" ∧
      (Gave (posts (laneOf call)) call (entryFor responses call) ∨
        (¬ ∃ response, Gave (posts (laneOf call)) call response) ∧ entryFor responses call = noResponse call) := by
  cases hget : mergedGet responses (call.property "id") with
  | none =>
    have hentry : entryFor responses call = noResponse call := by
      unfold entryFor
      rw [hget]
    have hnone : ¬ ∃ response, Gave (posts (laneOf call)) call response := by
      rintro ⟨response, hgave⟩
      have hmissing := List.find?_eq_none.mp hget response (List.mem_reverse.mpr (hall response hgave))
      obtain ⟨items, -, -, hkey⟩ := hgave
      exact hmissing hkey
    rw [hentry]
    refine ⟨?_, .inr ⟨hnone, rfl⟩⟩
    obtain ⟨id, hsome⟩ := Option.ne_none_iff_exists'.mp hid
    rw [hsome]
    unfold noResponse
    rw [hsome]
    rfl
  | some response =>
    have hsame : sameKey (response.property "id") (call.property "id") = true := by
      unfold mergedGet at hget
      exact List.find?_some (p := fun response : Json => sameKey (response.property "id") (call.property "id")) hget
    have hkey := sameKey_eq hsame
    have hmem : response ∈ responses := List.mem_reverse.mp (List.mem_of_find?_eq_some hget)
    have hentry : entryFor responses call = response := by
      unfold entryFor
      rw [hget]
      cases response with
      | null => exact absurd hkey.symm hid
      | _ => rfl
    rw [hentry]
    exact ⟨hkey, .inl (hmine response hmem hsame)⟩

theorem reassembled_of_items {traceItems otherItems : List Json}
    (hids : HasIds calls) (hrequested : AnswersOwn posts calls)
    (htrace : LaneItems posts calls .trace traceItems) (hother : LaneItems posts calls .other otherItems) :
    Reassembled posts calls (calls.map (entryFor (traceItems ++ otherItems))) := by
  have hfrom : ∀ call ∈ calls, ∀ lane items, LaneItems posts calls lane items → ∀ response ∈ items,
      sameKey (response.property "id") (call.property "id") = true → Gave (posts (laneOf call)) call response := by
    intro call hcall lane items hitems response hmem hsame
    have hid : response.property "id" ≠ none := by
      rw [sameKey_eq hsame]
      exact hids.present call hcall
    have hanswers := answers_of_laneItems hitems hmem hid
    have hlane : laneOf call = lane := by
      by_contra hother
      exact hrequested lane items hanswers response hmem call hcall hother (sameKey_eq hsame)
    rw [hlane]
    exact ⟨items, hanswers, hmem, hsame⟩
  unfold Reassembled
  rw [List.forall₂_map_right_iff, List.forall₂_same]
  intro call hcall
  refine entryFor_reassembled (hids.present call hcall) ?_ ?_
  · intro response hmem
    rcases List.mem_append.mp hmem with hmem | hmem
    · exact hfrom call hcall .trace traceItems htrace response hmem
    · exact hfrom call hcall .other otherItems hother response hmem
  · intro response hgave
    rw [List.mem_append]
    cases hlane : laneOf call with
    | trace => exact .inl (mem_laneItems_of_gave hcall (hlane ▸ htrace) hgave)
    | other => exact .inr (mem_laneItems_of_gave hcall (hlane ▸ hother) hgave)

end

/-! ## When a batch is reassembled -/

/-- A batch is reassembled exactly if each lane that is asked answers in one of the
attempts, with what can be spread. -/
theorem batch_reassembled_iff (posts : Lane → Nat → PostResult) (otherFirst : Bool) (calls : List Json)
    (hids : HasIds calls) (hrequested : AnswersOwn posts calls) :
    (∃ entries, handle posts otherFirst (.arr calls) = .ok (.arr entries) ∧ Reassembled posts calls entries) ↔
      ∀ lane, (∃ call ∈ calls, laneOf call = lane) → ∃ json, Answers (posts lane) json ∧ json.isIterable = true := by
  constructor
  · rintro ⟨entries, hhandle, -⟩ lane
    obtain ⟨traceItems, otherItems, htrace, hother, -⟩ := handle_ok.mp hhandle
    cases lane with
    | trace => exact laneItems_iff.mp ⟨traceItems, htrace⟩
    | other => exact laneItems_iff.mp ⟨otherItems, hother⟩
  · intro h
    obtain ⟨traceItems, htrace⟩ := laneItems_iff.mpr (h .trace)
    obtain ⟨otherItems, hother⟩ := laneItems_iff.mpr (h .other)
    exact ⟨_, handle_ok.mpr ⟨traceItems, otherItems, htrace, hother, rfl⟩,
      reassembled_of_items hids hrequested htrace hother⟩

/-! ## A batch over both lanes -/

def sampleCall (id : ℚ) (method : String) : Json :=
  .obj [("jsonrpc", .str "2.0"), ("id", .num id), ("method", .str method)]

def sampleResponse (id : ℚ) : Json := .obj [("jsonrpc", .str "2.0"), ("id", .num id), ("result", .str "0x")]

def sampleBatch : List Json := [sampleCall 1 "debug_traceCall", sampleCall 2 "eth_call"]

def sampleAnswer (traced : Json) : Lane → Json
  | .trace => traced
  | .other => .arr [sampleResponse 2]

def samplePosts (traced : Json) (lane : Lane) (_ : Nat) : PostResult := .response 200 (sampleAnswer traced lane)

theorem answers_samplePosts {traced json : Json} {lane : Lane} :
    Answers (samplePosts traced lane) json ↔ json = sampleAnswer traced lane := by
  constructor
  · rintro ⟨k, -, -, status, hk, -⟩
    cases hk
    rfl
  · rintro rfl
    exact ⟨0, by decide, nofun, 200, rfl, by decide, by decide⟩

theorem laneOf_sampleCalls :
    laneOf (sampleCall 1 "debug_traceCall") = .trace ∧ laneOf (sampleCall 2 "eth_call") = .other := by
  decide +kernel

theorem ids_sampleBatch : HasIds sampleBatch where
  present := by
    intro call hmem
    rcases List.mem_cons.mp hmem with rfl | hrest
    · exact nofun
    · rw [List.mem_singleton.mp hrest]
      exact nofun
  notNull := by
    intro call hmem
    rcases List.mem_cons.mp hmem with rfl | hrest
    · exact nofun
    · rw [List.mem_singleton.mp hrest]
      exact nofun
  distinct := by
    refine List.nodup_cons.mpr ⟨?_, List.nodup_singleton _⟩
    intro hmem
    have hne : (1 : ℚ) ≠ 2 := by decide
    exact hne (Json.num.inj (Option.some.inj (List.mem_singleton.mp hmem)))

/-- The tracing lane answers for no id, and the other one for its own only. -/
theorem requested_samplePosts {traced : Json} (htraced : ∀ items, traced ≠ .arr items) :
    AnswersOwn (samplePosts traced) sampleBatch := by
  intro lane items hanswers response hmem call hcall hlane
  rw [answers_samplePosts] at hanswers
  cases lane with
  | trace => exact absurd hanswers.symm (htraced items)
  | other =>
    cases hanswers
    rw [List.mem_singleton.mp hmem]
    rcases List.mem_cons.mp hcall with rfl | hrest
    · have hne : (2 : ℚ) ≠ 1 := by decide
      exact fun hid => hne (Json.num.inj (Option.some.inj hid))
    · rw [List.mem_singleton.mp hrest] at hlane
      exact absurd laneOf_sampleCalls.2 hlane

/-- The tracing lane answers null: the other one's response is kept. -/
theorem batch_reassembled_null : ∃ entries, handle (samplePosts .null) false (.arr sampleBatch) = .ok (.arr entries) ∧
    Reassembled (samplePosts .null) sampleBatch entries := by
  have hnull : ∀ items, Json.null ≠ .arr items := nofun
  refine (batch_reassembled_iff _ _ _ ids_sampleBatch (requested_samplePosts hnull)).mpr ?_
  intro lane hasked
  refine ⟨_, answers_samplePosts.mpr rfl, ?_⟩
  cases lane <;> rfl

/-- The tracing lane answers with a single error: the other one's response is lost. -/
theorem batch_lost : ¬ ∀ (posts : Lane → Nat → PostResult) (otherFirst : Bool) (calls : List Json),
    HasIds calls → AnswersOwn posts calls →
    ∃ entries, handle posts otherFirst (.arr calls) = .ok (.arr entries) ∧ Reassembled posts calls entries := by
  intro hall
  let single : Json := .obj [("jsonrpc", .str "2.0"), ("id", .null), ("error", .obj [("code", .num (-32007))])]
  have hsingle : ∀ items, single ≠ .arr items := nofun
  have hasked : ∃ call ∈ sampleBatch, laneOf call = .trace := ⟨_, List.mem_cons_self, laneOf_sampleCalls.1⟩
  obtain ⟨entries, hhandle, -⟩ := hall (samplePosts single) false sampleBatch ids_sampleBatch
    (requested_samplePosts hsingle)
  obtain ⟨traceItems, -, htrace, -, -⟩ := handle_ok.mp hhandle
  rw [askLane_of_asked hasked] at htrace
  cases htrace

end Paymaster
