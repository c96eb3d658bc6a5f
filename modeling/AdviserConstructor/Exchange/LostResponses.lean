import Mathlib.Data.List.Nodup
import AdviserConstructor.Exchange.BinanceSl

/-!
# Lost responses of a moved stop

`cancel_and_replace_sl` of `app/services/exchange/binance_adapter.py` on an exchange that may carry
out a request although its response is lost.  The adapter gives every attempt an id of its own and
takes a rejection as a duplicate for the sign that an attempt has landed; it then looks up the id
that it has just sent.  An id that is used for the first time is never a duplicate, so that the
sign only comes when two attempts share an id, which the suffixes are there to prevent.

* `attemptLoop_made`: what the attempts that are made leave on the book and how they end.
* `nodup_sentIds_iff`: how long the client order id may be for the ids to differ.
* `recoversLost_iff`: the ids differ, at most one new stop is live, and the call returns it,
  exactly when the client order id leaves room for the suffixes, no attempt that is answered with
  an error has landed, and nothing raises behind an accepted one.
-/

namespace AdviserConstructor
namespace BinanceAdapter

/-! ## The attempts that are made -/

/-- Whether another attempt follows a rejected one, and whether the exchange has confirmed the
cancel of the old stop by then. -/
def goesOn (r : Replies) (req : ReplaceSl) (attempt : ℕ) (error : BinanceAPIError)
    (resolved : Bool) : Option Bool :=
  if isDuplicateClientIdError error = true ∧ r.lookup attempt ≠ .notFound then none
  else if (req.closePosition && hasRealExisting req.existingOrderId &&
      isClosePositionConflictError error) = true then
    if resolved then none else if r.cancelConflict = .accepted then some true else none
  else
    match classifyError error (r.classify attempt) with
    | some (.wouldImmediatelyTrigger _) | some (.positionAlreadyFlat _) => none
    | _ => some resolved

/-- The attempts that are made out of those that are left. -/
def attemptsMade (r : Replies) (req : ReplaceSl) : List ℕ → Bool → List ℕ
  | [], _ => []
  | attempt :: rest, resolved =>
      attempt ::
        match r.place attempt with
        | .rejected error _ =>
            match goesOn r req attempt error resolved with
            | some resolved => attemptsMade r req rest resolved
            | none => []
        | _ => []

def callAttempts (r : Replies) (req : ReplaceSl) : List ℕ :=
  if (req.closePosition && hasRealExisting req.existingOrderId) = true then
    match r.cancel with
    | .accepted => attemptsMade r req [0, 1, 2, 3] true
    | .rejected _ => attemptsMade r req [0, 1, 2, 3] false
    | .raised _ _ => []
  else attemptsMade r req [0, 1, 2, 3] false

theorem attemptsMade_inOrder (r : Replies) (req : ReplaceSl) (attempts : List ℕ)
    (resolved : Bool) : attemptsMade r req attempts resolved <+: attempts := by
  induction attempts generalizing resolved with
  | nil => exact List.prefix_refl _
  | cons attempt rest ih =>
      rw [attemptsMade, List.prefix_cons_inj]
      cases r.place attempt with
      | accepted orderId => exact List.nil_prefix
      | raised message landed => exact List.nil_prefix
      | rejected error landed =>
          dsimp only
          cases goesOn r req attempt error resolved with
          | none => exact List.nil_prefix
          | some resolved' => exact ih resolved'

theorem callAttempts_inOrder (r : Replies) (req : ReplaceSl) :
    callAttempts r req <+: [0, 1, 2, 3] := by
  unfold callAttempts
  split
  · cases r.cancel with
    | accepted => exact attemptsMade_inOrder r req _ _
    | rejected effective => exact attemptsMade_inOrder r req _ _
    | raised message effective => exact List.nil_prefix
  · exact attemptsMade_inOrder r req _ _

/-! ## The ids -/

/-- The id under which an attempt is sent. -/
def sentId (req : ReplaceSl) (attempt : ℕ) : String :=
  clientAlgoId (attemptClientId req.clientOrderId attempt)

/-- The characters that an id may have. -/
def isIdChar (c : Char) : Bool := c.isAlphanum || c ∈ "._:-/".toList

/-- The characters of an id, out of those of the client order id. -/
def idChars (chars : List Char) : List Char :=
  if chars.filter isIdChar = [] then "algo".toList else (chars.filter isIdChar).take 36

theorem toList_clientAlgoId (s : String) : (clientAlgoId s).toList = idChars s.toList := by
  unfold clientAlgoId idChars
  rw [String.toList_ofList]
  rfl

theorem clientAlgoId_clientAlgoId (s : String) :
    clientAlgoId (clientAlgoId s) = clientAlgoId s := by
  rw [← String.toList_inj, toList_clientAlgoId, toList_clientAlgoId]
  generalize s.toList = chars
  by_cases hnil : chars.filter isIdChar = []
  · have halgo : idChars chars = "algo".toList := if_pos hnil
    rw [halgo]
    decide
  · have hchars : idChars chars = (chars.filter isIdChar).take 36 := if_neg hnil
    have hvalid : ((chars.filter isIdChar).take 36).filter isIdChar =
        (chars.filter isIdChar).take 36 :=
      List.filter_eq_self.mpr fun c hc => (List.mem_filter.mp (List.mem_of_mem_take hc)).2
    have htake : (chars.filter isIdChar).take 36 ≠ [] := by
      intro h
      exact hnil (List.take_eq_nil_iff.mp h |>.resolve_left (by decide))
    rw [hchars, idChars, hvalid, if_neg htake, List.take_take, min_self]

def suffixChars (attempt : ℕ) : List Char := ("-r" ++ toString attempt).toList

theorem toList_attemptClientId_zero (clientOrderId : String) :
    (attemptClientId clientOrderId 0).toList = clientOrderId.toList.take 36 := by
  rw [attemptClientId, String.toList_ofList, if_pos rfl]

theorem toList_attemptClientId {attempt : ℕ} (h : attempt ≠ 0) (clientOrderId : String) :
    (attemptClientId clientOrderId attempt).toList =
      (clientOrderId.toList ++ suffixChars attempt).take 36 := by
  rw [attemptClientId, String.toList_ofList, if_neg h, suffixChars, String.toList_append,
    String.toList_append, String.toList_append, List.append_assoc]

section Ids

variable {req : ReplaceSl}

theorem toList_sentId_zero (h : req.clientOrderId.toList.length ≤ 36) :
    (sentId req 0).toList = idChars req.clientOrderId.toList := by
  rw [sentId, toList_clientAlgoId, toList_attemptClientId_zero, List.take_of_length_le h]

theorem toList_sentId {attempt : ℕ} (hattempt : attempt ∈ [1, 2, 3])
    (h : req.clientOrderId.toList.length ≤ 35) :
    (sentId req attempt).toList = req.clientOrderId.toList.filter isIdChar ++
      (suffixChars attempt).take (36 - req.clientOrderId.toList.length) := by
  have hne : attempt ≠ 0 := by
    rintro rfl
    exact absurd hattempt (by decide)
  have hsuffix : (suffixChars attempt).all isIdChar = true ∧
      (suffixChars attempt).length = 3 := by
    simp only [List.mem_cons, List.not_mem_nil, or_false] at hattempt
    rcases hattempt with rfl | rfl | rfl <;> decide
  obtain ⟨hvalid, hlength⟩ := hsuffix
  have hkept : ((suffixChars attempt).take (36 - req.clientOrderId.toList.length)).filter
      isIdChar = (suffixChars attempt).take (36 - req.clientOrderId.toList.length) :=
    List.filter_eq_self.mpr fun c hc => List.all_eq_true.mp hvalid c (List.mem_of_mem_take hc)
  have hsome : req.clientOrderId.toList.filter isIdChar ++
      (suffixChars attempt).take (36 - req.clientOrderId.toList.length) ≠ [] := by
    intro hnil
    have hlen := congrArg List.length (List.append_eq_nil_iff.mp hnil).2
    rw [List.length_take, List.length_nil] at hlen
    omega
  have hfits : (req.clientOrderId.toList.filter isIdChar ++
      (suffixChars attempt).take (36 - req.clientOrderId.toList.length)).length ≤ 36 := by
    have := List.length_filter_le isIdChar req.clientOrderId.toList
    rw [List.length_append, List.length_take]
    omega
  rw [sentId, toList_clientAlgoId, toList_attemptClientId hne, List.take_append,
    List.take_of_length_le (by omega), idChars, List.filter_append, hkept, if_neg hsome,
    List.take_of_length_le hfits]

theorem sentId_zero_ne {attempt : ℕ} (hattempt : attempt ∈ [1, 2, 3])
    (h : req.clientOrderId.toList.length ≤ 35) : sentId req 0 ≠ sentId req attempt := by
  intro hsame
  have hchars := congrArg String.toList hsame
  rw [toList_sentId_zero (by omega), toList_sentId hattempt h] at hchars
  have hlength : (suffixChars attempt).length = 3 ∧ (suffixChars attempt).head? = some '-' := by
    simp only [List.mem_cons, List.not_mem_nil, or_false] at hattempt
    rcases hattempt with rfl | rfl | rfl <;> decide
  unfold idChars at hchars
  by_cases hnil : req.clientOrderId.toList.filter isIdChar = []
  · rw [if_pos hnil, hnil, List.nil_append] at hchars
    have hhead := congrArg List.head? hchars
    rw [List.head?_take, if_neg (by omega), hlength.2] at hhead
    exact absurd hhead (by decide)
  · have hfits : (req.clientOrderId.toList.filter isIdChar).length ≤ 36 :=
      (List.length_filter_le _ _).trans (by omega)
    rw [if_neg hnil, List.take_of_length_le hfits] at hchars
    have hlen := congrArg List.length hchars
    rw [List.length_append, List.length_take] at hlen
    omega

theorem sentId_ne_iff {attempt other : ℕ} (hattempt : attempt ∈ [1, 2, 3])
    (hother : other ∈ [1, 2, 3]) (hne : attempt ≠ other) :
    sentId req attempt ≠ sentId req other ↔ req.clientOrderId.toList.length ≤ 33 := by
  have hsuffix : ∀ n ∈ [1, 2, 3], (suffixChars n).length = 3 ∧
      (suffixChars n).take 2 = "-r".toList := by
    intro n hn
    simp only [List.mem_cons, List.not_mem_nil, or_false] at hn
    rcases hn with rfl | rfl | rfl <;> decide
  constructor
  · intro hdiffers
    by_contra hlong
    refine hdiffers ?_
    have hzero : ∀ n ∈ [1, 2, 3], n ≠ 0 := by decide
    -- at most two characters of the suffix fit, and these are the same
    have hshort : ∀ n ∈ [1, 2, 3],
        (suffixChars n).take (36 - req.clientOrderId.toList.length) =
          "-r".toList.take (36 - req.clientOrderId.toList.length) := by
      intro n hn
      rw [← (hsuffix n hn).2, List.take_take, min_eq_left (by omega)]
    unfold sentId
    congr 1
    rw [← String.toList_inj, toList_attemptClientId (hzero _ hattempt),
      toList_attemptClientId (hzero _ hother), List.take_append, List.take_append,
      hshort _ hattempt, hshort _ hother]
  · intro hshort hsame
    have hchars := congrArg String.toList hsame
    rw [toList_sentId hattempt (by omega), toList_sentId hother (by omega),
      List.take_of_length_le (by rw [(hsuffix _ hattempt).1]; omega),
      List.take_of_length_le (by rw [(hsuffix _ hother).1]; omega)] at hchars
    have hequal := List.append_cancel_left hchars
    simp only [List.mem_cons, List.not_mem_nil, or_false] at hattempt hother
    rcases hattempt with rfl | rfl | rfl <;> rcases hother with rfl | rfl | rfl <;>
      first
        | exact hne rfl
        | exact absurd hequal (by decide)

theorem sentId_eq_of_long (h : 36 ≤ req.clientOrderId.toList.length) :
    sentId req 0 = sentId req 1 := by
  unfold sentId
  congr 1
  rw [← String.toList_inj, toList_attemptClientId_zero, toList_attemptClientId (by decide),
    List.take_append_of_le_length h]

end Ids

/-- The suffixes of so many attempts fit behind the client order id: a second attempt needs room
for one character of its suffix, and a third for all three. -/
def RoomForSuffixes (req : ReplaceSl) (made : ℕ) : Prop :=
  (2 ≤ made → req.clientOrderId.toList.length ≤ 35) ∧
    (3 ≤ made → req.clientOrderId.toList.length ≤ 33)

instance (req : ReplaceSl) (made : ℕ) : Decidable (RoomForSuffixes req made) :=
  inferInstanceAs (Decidable ((2 ≤ made → _ ≤ 35) ∧ (3 ≤ made → _ ≤ 33)))

/-- **When the ids differ.**  The attempts that are made have ids of their own exactly when their
suffixes fit. -/
theorem nodup_sentIds_iff {req : ReplaceSl} {made : List ℕ} (hmade : made <+: [0, 1, 2, 3]) :
    (made.map (sentId req)).Nodup ↔ RoomForSuffixes req made.length := by
  have hfirst : sentId req 0 ≠ sentId req 1 ↔ req.clientOrderId.toList.length ≤ 35 := by
    constructor
    · intro hdiffers
      by_contra hlong
      exact hdiffers (sentId_eq_of_long (by omega))
    · exact sentId_zero_ne (by decide)
  have hsecond := @sentId_ne_iff req 1 2 (by decide) (by decide) (by decide)
  have hzero : req.clientOrderId.toList.length ≤ 33 → ∀ n ∈ [1, 2, 3],
      sentId req 0 ≠ sentId req n := fun hshort n hn => sentId_zero_ne hn (by omega)
  have hmade' : made = [] ∨ made = [0] ∨ made = [0, 1] ∨ made = [0, 1, 2] ∨
      made = [0, 1, 2, 3] := by
    have hlen := hmade.length_le
    have htake := List.prefix_iff_eq_take.mp hmade
    generalize made.length = n at hlen htake
    rw [htake]
    rcases n with _ | _ | _ | _ | _ | n
    · exact .inl rfl
    · exact .inr (.inl rfl)
    · exact .inr (.inr (.inl rfl))
    · exact .inr (.inr (.inr (.inl rfl)))
    · exact .inr (.inr (.inr (.inr rfl)))
    · exact absurd hlen (by simp)
  rcases hmade' with rfl | rfl | rfl | rfl | rfl
  · simp [RoomForSuffixes]
  · simp [RoomForSuffixes]
  · simpa [RoomForSuffixes] using hfirst
  · constructor
    · intro hnodup
      simp only [List.map_cons, List.map_nil, List.nodup_cons, List.mem_cons,
        List.not_mem_nil, or_false, not_or] at hnodup
      exact ⟨fun _ => hfirst.mp hnodup.1.1, fun _ => hsecond.mp hnodup.2.1⟩
    · intro hroom
      have hshort := hroom.2 le_rfl
      have hfrom := hzero hshort
      simpa using ⟨⟨hfrom 1 (by decide), hfrom 2 (by decide)⟩, hsecond.mpr hshort⟩
  · constructor
    · intro hnodup
      simp only [List.map_cons, List.map_nil, List.nodup_cons, List.mem_cons, List.not_mem_nil,
        not_or] at hnodup
      exact ⟨fun _ => hfirst.mp hnodup.1.1, fun _ => hsecond.mp hnodup.2.1.1⟩
    · intro hroom
      have hshort := hroom.2 (by decide)
      have hfrom := hzero hshort
      have hlater : ∀ n ∈ [1, 2, 3], ∀ m ∈ [1, 2, 3], n ≠ m → sentId req n ≠ sentId req m :=
        fun n hn m hm hne => (sentId_ne_iff hn hm hne).mpr hshort
      simpa using ⟨⟨hfrom 1 (by decide), hfrom 2 (by decide), hfrom 3 (by decide)⟩,
        ⟨hlater 1 (by decide) 2 (by decide) (by decide),
          hlater 1 (by decide) 3 (by decide) (by decide)⟩,
        hlater 2 (by decide) 3 (by decide) (by decide)⟩

/-! ## The book -/

/-- The ids that the caller knows: the old stop and what is on the book. -/
def knownIds (x : Exchange) (req : ReplaceSl) : List String :=
  req.existingOrderId :: x.orders.map StopOrder.orderId

/-- The stops on the book that were not known. -/
def newStops (known : List String) (x : Exchange) : List StopOrder :=
  x.orders.filter fun o => o.orderId ∉ known

/-- The stop that an attempt put on the book. -/
def landedStop (r : Replies) (req : ReplaceSl) (side : OrderSide) (attempt : ℕ) :
    Option StopOrder :=
  (r.place attempt).placedId.map
    (stopOrder r side req.newQuantity req.newTriggerPrice
      (attemptClientId req.clientOrderId attempt) req.closePosition)

/-- How the exchange treats ids: a new order gets a new one, a lookup answers with an order of the
id that was asked for, and a duplicate is not placed. -/
structure KeepsIds (r : Replies) (req : ReplaceSl) (x : Exchange) : Prop where
  fresh : ∀ attempt, ∀ orderId ∈ (r.place attempt).placedId, orderId ∉ knownIds x req
  lookup : ∀ attempt order, r.lookup attempt = .found order →
    order.clientAlgoId = attemptClientId req.clientOrderId attempt
  duplicate : ∀ attempt error landed, r.place attempt = .rejected error landed →
    isDuplicateClientIdError error = true → landed = none

def placeAttempt (r : Replies) (req : ReplaceSl) (side : OrderSide) (attempt : ℕ)
    (x : Exchange) : Placement × Exchange :=
  placeStopLoss r (r.place attempt) x side req.newQuantity req.newTriggerPrice
    (attemptClientId req.clientOrderId attempt) req.closePosition

section Book

variable {r : Replies} {req : ReplaceSl} {side : OrderSide} {known : List String} {x : Exchange}

theorem newStops_cancel (reply : CancelReply) (x : Exchange)
    (hknown : req.existingOrderId ∈ known) :
    newStops known (cancelExistingSl reply x req.existingOrderId).2 = newStops known x := by
  rw [cancelExistingSl_book]
  split
  · unfold newStops
    rw [List.filter_filter]
    refine List.filter_congr fun o _ => ?_
    by_cases ho : o.orderId = req.existingOrderId
    · simp [ho, hknown]
    · simp [ho]
  · rfl

theorem newStops_place (attempt : ℕ) (x : Exchange)
    (hfresh : ∀ orderId ∈ (r.place attempt).placedId, orderId ∉ known) :
    newStops known (placeAttempt r req side attempt x).2 =
      newStops known x ++ (landedStop r req side attempt).toList := by
  have hbook : (placeAttempt r req side attempt x).2.orders =
      x.orders ++ (landedStop r req side attempt).toList := placeStopLoss_orders ..
  unfold newStops
  rw [hbook, List.filter_append]
  congr 1
  unfold landedStop
  cases hplaced : (r.place attempt).placedId with
  | none => rfl
  | some orderId =>
      have hnew := hfresh orderId hplaced
      simp [stopOrder, hnew]

/-! ## The loop -/

theorem attemptLoop_of_placement {attempt : ℕ} {rest : List ℕ} {ending : Attempts}
    (hending : match (placeAttempt r req side attempt x).1 with
      | .accepted order => ending = .placed order
      | .raised message => ending = .raised (.other message)
      | .rejected _ => False)
    (lastError : Option BinanceAPIError) (resolved : Bool) :
    attemptLoop r req side (attempt :: rest) lastError resolved x =
      (ending, (placeAttempt r req side attempt x).2) := by
  rw [attemptLoop]
  unfold placeAttempt at hending ⊢
  generalize placeStopLoss r (r.place attempt) x side req.newQuantity req.newTriggerPrice
    (attemptClientId req.clientOrderId attempt) req.closePosition = placed at hending ⊢
  obtain ⟨placement, y⟩ := placed
  cases placement with
  | accepted order =>
      rw [hending]
  | raised message =>
      rw [hending]
  | rejected error => exact hending.elim

theorem attemptLoop_rejected {attempt : ℕ} {rest : List ℕ} {error : BinanceAPIError}
    {landed : Option String} (hplace : r.place attempt = .rejected error landed)
    (hknown : req.existingOrderId ∈ known) (lastError : Option BinanceAPIError)
    (resolved : Bool) (x : Exchange) :
    ∃ x' : Exchange,
      newStops known x' = newStops known (placeAttempt r req side attempt x).2 ∧
      match goesOn r req attempt error resolved with
      | some resolved' => attemptLoop r req side (attempt :: rest) lastError resolved x =
          attemptLoop r req side rest (some error) resolved' x'
      | none => ∃ ending, attemptLoop r req side (attempt :: rest) lastError resolved x =
          (ending, x') ∧
          ∀ order, ending = .placed order → isDuplicateClientIdError error = true ∧
            ∃ found, r.lookup attempt = .found found ∧ order = stopLossResult found := by
  have hrejected : (placeAttempt r req side attempt x).1 = .rejected error := by
    rw [placeAttempt, hplace]
    rfl
  rw [attemptLoop]
  unfold placeAttempt at hrejected ⊢
  generalize placeStopLoss r (r.place attempt) x side req.newQuantity req.newTriggerPrice
    (attemptClientId req.clientOrderId attempt) req.closePosition = placed at hrejected ⊢
  obtain ⟨placement, y⟩ := placed
  subst hrejected
  dsimp only
  -- behind a rejection that no lookup has explained
  have hafter : (¬(isDuplicateClientIdError error = true ∧ r.lookup attempt ≠ .notFound)) →
      ∃ x' : Exchange, newStops known x' = newStops known y ∧
      match goesOn r req attempt error resolved with
      | some resolved' => afterRejection r req attempt error resolved y
            (attemptLoop r req side rest (some error)) =
          attemptLoop r req side rest (some error) resolved' x'
      | none => ∃ ending, afterRejection r req attempt error resolved y
            (attemptLoop r req side rest (some error)) = (ending, x') ∧
          ∀ order, ending = .placed order → isDuplicateClientIdError error = true ∧
            ∃ found, r.lookup attempt = .found found ∧ order = stopLossResult found := by
    intro hunexplained
    unfold goesOn afterRejection
    rw [if_neg hunexplained]
    by_cases hconflict : (req.closePosition && hasRealExisting req.existingOrderId &&
        isClosePositionConflictError error) = true
    · simp only [hconflict]
      cases resolved with
      | true => exact ⟨y, rfl, _, rfl, by simp⟩
      | false =>
          have hcancel := newStops_cancel r.cancelConflict y hknown
          refine ⟨_, hcancel, ?_⟩
          cases hreply : r.cancelConflict with
          | accepted => rfl
          | rejected effective => exact ⟨_, rfl, by simp⟩
          | raised message effective => exact ⟨_, rfl, by simp⟩
    · simp only [hconflict, Bool.false_eq_true]
      refine ⟨y, rfl, ?_⟩
      cases hclass : classifyError error (r.classify attempt) with
      | none => rfl
      | some classified =>
          cases classified with
          | transient message => rfl
          | other message => rfl
          | wouldImmediatelyTrigger code => exact ⟨_, rfl, by simp⟩
          | positionAlreadyFlat code => exact ⟨_, rfl, by simp⟩
  by_cases hdup : isDuplicateClientIdError error = true
  · rw [if_pos hdup]
    cases hlookup : r.lookup attempt with
    | notFound =>
        have hnext := hafter (by simp [hlookup])
        simpa only [lookupAlgoByClientId, hlookup] using hnext
    | found order =>
        have hends : goesOn r req attempt error resolved = none := by
          rw [goesOn, if_pos ⟨hdup, by simp [hlookup]⟩]
        rw [hends]
        exact ⟨y, rfl, _, rfl, by rintro _ ⟨rfl⟩; exact ⟨hdup, order, rfl, rfl⟩⟩
    | raised message =>
        have hends : goesOn r req attempt error resolved = none := by
          rw [goesOn, if_pos ⟨hdup, by simp [hlookup]⟩]
        rw [hends]
        exact ⟨y, rfl, _, rfl, by simp⟩
  · rw [if_neg hdup]
    exact hafter (fun h => hdup h.1)

/-- **What the attempts leave.**  Those that are made put on the book what landed of them; an
accepted one ends the loop with its order, and otherwise the loop ends with an order only if a
lookup found one. -/
theorem attemptLoop_made (hknown : req.existingOrderId ∈ known)
    (hfresh : ∀ attempt, ∀ orderId ∈ (r.place attempt).placedId, orderId ∉ known)
    (attempts : List ℕ) (lastError : Option BinanceAPIError) (resolved : Bool) (x : Exchange) :
    let made := attemptsMade r req attempts resolved
    let ended := attemptLoop r req side attempts lastError resolved x
    newStops known ended.2 = newStops known x ++ made.filterMap (landedStop r req side) ∧
      (∀ attempt ∈ made, ∀ orderId, r.place attempt = .accepted orderId →
        ∃ stop, landedStop r req side attempt = some stop ∧
          ended.1 = .placed (stopLossResult stop)) ∧
      ∀ order, ended.1 = .placed order →
        (∃ attempt ∈ made, ∃ orderId, r.place attempt = .accepted orderId) ∨
        ∃ attempt ∈ made, ∃ error landed found, r.place attempt = .rejected error landed ∧
          isDuplicateClientIdError error = true ∧ r.lookup attempt = .found found ∧
          order = stopLossResult found := by
  induction attempts generalizing lastError resolved x with
  | nil =>
      refine ⟨by simp [attemptsMade, attemptLoop], by simp [attemptsMade], ?_⟩
      intro order horder
      simp [attemptLoop] at horder
  | cons attempt rest ih =>
      have hplaced := @newStops_place r req side known attempt x (hfresh attempt)
      cases hplace : r.place attempt with
      | accepted orderId =>
          have hmade : attemptsMade r req (attempt :: rest) resolved = [attempt] := by
            rw [attemptsMade, hplace]
          have hended := @attemptLoop_of_placement r req side x attempt rest
            (.placed (stopLossResult (stopOrder r side req.newQuantity req.newTriggerPrice
              (attemptClientId req.clientOrderId attempt) req.closePosition orderId)))
            (by rw [placeAttempt, hplace]; rfl) lastError resolved
          have hlanded : landedStop r req side attempt =
              some (stopOrder r side req.newQuantity req.newTriggerPrice
                (attemptClientId req.clientOrderId attempt) req.closePosition orderId) := by
            rw [landedStop, hplace]
            rfl
          rw [hmade, hended]
          refine ⟨?_, ?_, ?_⟩
          · rw [hplaced, List.filterMap_cons]
            rfl
          · intro attempt' hmem orderId' _
            rw [List.mem_singleton] at hmem
            rw [hmem]
            exact ⟨_, hlanded, rfl⟩
          · intro order _
            exact .inl ⟨attempt, List.mem_singleton_self _, orderId, hplace⟩
      | raised message landed =>
          have hmade : attemptsMade r req (attempt :: rest) resolved = [attempt] := by
            rw [attemptsMade, hplace]
          have hended := @attemptLoop_of_placement r req side x attempt rest
            (.raised (.other message)) (by rw [placeAttempt, hplace]; rfl) lastError resolved
          rw [hmade, hended]
          refine ⟨?_, ?_, ?_⟩
          · rw [hplaced, List.filterMap_cons]
            cases landedStop r req side attempt <;> rfl
          · intro attempt' hmem orderId' haccepted
            rw [List.mem_singleton] at hmem
            rw [hmem, hplace] at haccepted
            cases haccepted
          · intro order horder
            cases horder
      | rejected error landed =>
          obtain ⟨x', hbook, hends⟩ :=
            @attemptLoop_rejected r req side known attempt rest _ _ hplace hknown lastError
              resolved x
          rw [hplaced] at hbook
          cases hgoes : goesOn r req attempt error resolved with
          | some resolved' =>
              rw [hgoes] at hends
              have hmade : attemptsMade r req (attempt :: rest) resolved =
                  attempt :: attemptsMade r req rest resolved' := by
                rw [attemptsMade, hplace]
                simp only [hgoes]
              obtain ⟨hstops, haccepted, hplacedBy⟩ := ih (some error) resolved' x'
              rw [hmade, hends]
              refine ⟨?_, ?_, ?_⟩
              · rw [hstops, hbook, List.filterMap_cons]
                cases landedStop r req side attempt <;> simp
              · intro attempt' hmem orderId' hplace'
                rcases List.mem_cons.mp hmem with rfl | hmem
                · rw [hplace] at hplace'
                  cases hplace'
                · exact haccepted attempt' hmem orderId' hplace'
              · intro order horder
                rcases hplacedBy order horder with ⟨attempt', hmem, hacc⟩ |
                  ⟨attempt', hmem, hfound⟩
                · exact .inl ⟨attempt', List.mem_cons_of_mem _ hmem, hacc⟩
                · exact .inr ⟨attempt', List.mem_cons_of_mem _ hmem, hfound⟩
          | none =>
              rw [hgoes] at hends
              obtain ⟨ending, hended, hfound⟩ := hends
              have hmade : attemptsMade r req (attempt :: rest) resolved = [attempt] := by
                rw [attemptsMade, hplace]
                simp only [hgoes]
              rw [hmade, hended]
              refine ⟨?_, ?_, ?_⟩
              · rw [hbook, List.filterMap_cons]
                cases landedStop r req side attempt <;> rfl
              · intro attempt' hmem orderId' haccepted
                rw [List.mem_singleton] at hmem
                rw [hmem, hplace] at haccepted
                cases haccepted
              · intro order horder
                obtain ⟨hdup, found, hlookup, hsame⟩ := hfound order horder
                exact .inr ⟨attempt, List.mem_singleton_self _, error, landed, found, hplace,
                  hdup, hlookup, hsame⟩

end Book

/-! ## The call -/

/-- The cancel of the old stop behind an accepted order fails without an answer. -/
def concludingCancelRaises (r : Replies) (req : ReplaceSl) : Prop :=
  (!req.closePosition && hasRealExisting req.existingOrderId) = true ∧
    ∃ message effective, r.cancel = .raised message effective

section Call

variable {r : Replies} {req : ReplaceSl} {known : List String}

theorem concludeReplace_ok_iff (hknown : req.existingOrderId ∈ known)
    (ended : Attempts × Exchange) :
    newStops known (concludeReplace r req ended).2 = newStops known ended.2 ∧
      ∀ order, (concludeReplace r req ended).1 = .ok order ↔
        ended.1 = .placed order ∧ ¬concludingCancelRaises r req := by
  obtain ⟨attempts, x⟩ := ended
  cases attempts with
  | raised error => exact ⟨rfl, fun order => by simp [concludeReplace]⟩
  | gaveUp lastError => exact ⟨rfl, fun order => by simp [concludeReplace]⟩
  | placed placed =>
      unfold concludeReplace concludingCancelRaises
      by_cases hlast : (!req.closePosition && hasRealExisting req.existingOrderId) = true
      · have hcancel := newStops_cancel r.cancel x hknown
        simp only [hlast, true_and]
        cases hreply : r.cancel with
        | accepted =>
            rw [hreply] at hcancel
            exact ⟨hcancel, fun order => by simp [cancelExistingSl]⟩
        | rejected effective =>
            rw [hreply] at hcancel
            exact ⟨hcancel, fun order => by simp [cancelExistingSl]⟩
        | raised message effective =>
            rw [hreply] at hcancel
            exact ⟨hcancel, fun order => by simp [cancelExistingSl]⟩
      · simp only [hlast, Bool.false_eq_true, if_false, false_and, not_false_eq_true]
        exact ⟨trivial, fun order => by simp⟩

theorem cancelAndReplaceSl_loop (hknown : req.existingOrderId ∈ known) (x : Exchange) :
    (callAttempts r req = [] ∧ newStops known (cancelAndReplaceSl r x req).2 = newStops known x ∧
      ∀ order, (cancelAndReplaceSl r x req).1 ≠ .ok order) ∨
    ∃ resolved y, newStops known y = newStops known x ∧
      callAttempts r req = attemptsMade r req [0, 1, 2, 3] resolved ∧
      cancelAndReplaceSl r x req = concludeReplace r req
        (attemptLoop r req (resolveStopLossSide r.side) [0, 1, 2, 3] none resolved y) := by
  unfold callAttempts cancelAndReplaceSl
  by_cases hfirst : (req.closePosition && hasRealExisting req.existingOrderId) = true
  · have hcancel := newStops_cancel r.cancel x hknown
    simp only [hfirst]
    cases hreply : r.cancel with
    | accepted =>
        rw [hreply] at hcancel
        exact .inr ⟨true, _, hcancel, rfl, rfl⟩
    | rejected effective =>
        rw [hreply] at hcancel
        exact .inr ⟨false, _, hcancel, rfl, rfl⟩
    | raised message effective =>
        rw [hreply] at hcancel
        exact .inl ⟨rfl, hcancel, fun order => by simp [cancelExistingSl]⟩
  · simp only [hfirst, Bool.false_eq_true]
    exact .inr ⟨false, x, rfl, rfl, rfl⟩

/-- **What a call leaves.**  The new stops are those that landed of its attempts; an accepted one
is returned unless the cancel behind it fails, and an order that is returned was accepted or looked
up. -/
theorem cancelAndReplaceSl_made {x : Exchange} (honest : KeepsIds r req x) :
    let ended := cancelAndReplaceSl r x req
    newStops (knownIds x req) ended.2 =
        (callAttempts r req).filterMap (landedStop r req (resolveStopLossSide r.side)) ∧
      (∀ attempt ∈ callAttempts r req, ∀ orderId, r.place attempt = .accepted orderId →
        ∃ stop, landedStop r req (resolveStopLossSide r.side) attempt = some stop ∧
          ∀ order, ended.1 = .ok order ↔
            stopLossResult stop = order ∧ ¬concludingCancelRaises r req) ∧
      ∀ order, ended.1 = .ok order →
        (∃ attempt ∈ callAttempts r req, ∃ orderId, r.place attempt = .accepted orderId) ∨
        ∃ attempt ∈ callAttempts r req, ∃ error landed found,
          r.place attempt = .rejected error landed ∧ isDuplicateClientIdError error = true ∧
          r.lookup attempt = .found found ∧ order = stopLossResult found := by
  have hknown : req.existingOrderId ∈ knownIds x req := List.mem_cons_self
  have hempty : newStops (knownIds x req) x = [] := by
    refine List.filter_eq_nil_iff.mpr fun o ho => ?_
    have hmem : o.orderId ∈ knownIds x req := List.mem_cons_of_mem _ (List.mem_map_of_mem ho)
    simpa using hmem
  dsimp only
  rcases @cancelAndReplaceSl_loop r req _ hknown x with
    ⟨hmade, hbook, hraised⟩ | ⟨resolved, y, hbook, hmade, hcall⟩
  · rw [hmade, hbook, hempty]
    refine ⟨rfl, ?_, ?_⟩
    · intro attempt hattempt
      cases hattempt
    · intro order horder
      exact absurd horder (hraised order)
  · obtain ⟨hstops, haccepted, hplaced⟩ := @attemptLoop_made r req
      (resolveStopLossSide r.side) _ hknown honest.fresh [0, 1, 2, 3] none resolved y
    obtain ⟨hkept, hok⟩ := concludeReplace_ok_iff (r := r) hknown
      (attemptLoop r req (resolveStopLossSide r.side) [0, 1, 2, 3] none resolved y)
    rw [hmade, hcall]
    refine ⟨?_, ?_, ?_⟩
    · rw [hkept, hstops, hbook, hempty, List.nil_append]
    · intro attempt hattempt orderId hplace
      obtain ⟨stop, hlanded, hended⟩ := haccepted attempt hattempt orderId hplace
      refine ⟨stop, hlanded, fun order => ?_⟩
      rw [hok order, hended, Attempts.placed.injEq]
    · intro order horder
      exact hplaced order ((hok order).mp horder).1

end Call

/-! ## Recovering what was lost -/

/-- What a call owes its caller: the ids of its attempts differ, at most one new stop is live, and
a new stop that is live is the order that it returns. -/
structure RecoversLost (r : Replies) (req : ReplaceSl) (x : Exchange) : Prop where
  distinct : ((callAttempts r req).map (sentId req)).Nodup
  single : (newStops (knownIds x req) (cancelAndReplaceSl r x req).2).length ≤ 1
  returned : ∀ stop ∈ newStops (knownIds x req) (cancelAndReplaceSl r x req).2,
    (cancelAndReplaceSl r x req).1 = .ok (stopLossResult stop)

/-- The attempt was told that its order is live. -/
def toldLive (r : Replies) (attempt : ℕ) : Prop := ∃ orderId, r.place attempt = .accepted orderId

section Recovery

variable {r : Replies} {req : ReplaceSl} {x : Exchange}

theorem clientAlgoId_of_landed {side : OrderSide} {attempt : ℕ} {stop : StopOrder}
    (h : landedStop r req side attempt = some stop) :
    stop.clientAlgoId = sentId req attempt := by
  obtain ⟨orderId, -, rfl⟩ := Option.map_eq_some_iff.mp h
  rfl

theorem length_landed_le_one {made : List ℕ} {side : OrderSide}
    (hlast : ∀ before after attempt, made = before ++ attempt :: after →
      toldLive r attempt → after = [])
    (htold : ∀ attempt ∈ made, (landedStop r req side attempt).isSome = true →
      toldLive r attempt) :
    (made.filterMap (landedStop r req side)).length ≤ 1 := by
  induction made with
  | nil => exact Nat.zero_le 1
  | cons attempt rest ih =>
      rw [List.filterMap_cons]
      cases hlanded : landedStop r req side attempt with
      | none =>
          refine ih ?_ ?_
          · intro before after attempt' hrest
            exact hlast (attempt :: before) after attempt' (by rw [hrest]; rfl)
          · intro attempt' hmem
            exact htold attempt' (List.mem_cons_of_mem _ hmem)
      | some stop =>
          have hrest : rest = [] := hlast [] rest attempt rfl
            (htold attempt List.mem_cons_self (by rw [hlanded]; rfl))
          rw [hrest]
          exact le_rfl

theorem toldLive_last {attempts : List ℕ} {resolved : Bool} {before after : List ℕ} {attempt : ℕ}
    (hmade : attemptsMade r req attempts resolved = before ++ attempt :: after)
    (htold : toldLive r attempt) : after = [] := by
  induction attempts generalizing resolved before with
  | nil => simp [attemptsMade] at hmade
  | cons first rest ih =>
      rw [attemptsMade] at hmade
      cases before with
      | nil =>
          rw [List.nil_append, List.cons.injEq] at hmade
          obtain ⟨rfl, hafter⟩ := hmade
          obtain ⟨orderId, hplace⟩ := htold
          rw [hplace] at hafter
          exact hafter.symm
      | cons head before =>
          rw [List.cons_append, List.cons.injEq] at hmade
          obtain ⟨-, hafter⟩ := hmade
          cases hplace : r.place first with
          | accepted orderId => simp [hplace] at hafter
          | raised message landed => simp [hplace] at hafter
          | rejected error landed =>
              simp only [hplace] at hafter
              cases hgoes : goesOn r req first error resolved with
              | none => simp [hgoes] at hafter
              | some resolved' =>
                  simp only [hgoes] at hafter
                  exact ih hafter

theorem toldLive_last_call {before after : List ℕ} {attempt : ℕ}
    (hmade : callAttempts r req = before ++ attempt :: after) (htold : toldLive r attempt) :
    after = [] := by
  unfold callAttempts at hmade
  by_cases hfirst : (req.closePosition && hasRealExisting req.existingOrderId) = true
  · rw [if_pos hfirst] at hmade
    cases hcancel : r.cancel with
    | accepted => exact toldLive_last (by simpa [hcancel] using hmade) htold
    | rejected effective => exact toldLive_last (by simpa [hcancel] using hmade) htold
    | raised message effective => simp [hcancel] at hmade
  · rw [if_neg hfirst] at hmade
    exact toldLive_last hmade htold

/-- **When lost responses are recovered.**  A call keeps what it owes exactly when the suffixes of
its attempts fit, no attempt has landed without being told so, and the cancel behind an accepted
order does not fail: the lookup of a lost order finds nothing, because it asks for the id of an
attempt that was refused. -/
theorem recoversLost_iff (honest : KeepsIds r req x) :
    RecoversLost r req x ↔
      RoomForSuffixes req (callAttempts r req).length ∧
      (∀ attempt ∈ callAttempts r req, (r.place attempt).placedId.isSome = true →
        toldLive r attempt) ∧
      ∀ attempt ∈ callAttempts r req, toldLive r attempt → ¬concludingCancelRaises r req := by
  obtain ⟨hbook, haccepted, hreturned⟩ := cancelAndReplaceSl_made honest
  have hlandedIff : ∀ attempt,
      (landedStop r req (resolveStopLossSide r.side) attempt).isSome =
        (r.place attempt).placedId.isSome := fun attempt => Option.isSome_map
  constructor
  · intro recovers
    have hsame : ∀ i ∈ callAttempts r req, ∀ j ∈ callAttempts r req,
        sentId req i = sentId req j → i = j := fun i hi j hj h =>
      List.inj_on_of_nodup_map recovers.distinct hi hj h
    have hlive : ∀ attempt ∈ callAttempts r req, ∀ stop,
        landedStop r req (resolveStopLossSide r.side) attempt = some stop →
          (cancelAndReplaceSl r x req).1 = .ok (stopLossResult stop) := by
      intro attempt hattempt stop hstop
      refine recovers.returned stop ?_
      rw [hbook]
      exact List.mem_filterMap.mpr ⟨attempt, hattempt, hstop⟩
    refine ⟨(nodup_sentIds_iff (callAttempts_inOrder r req)).mp recovers.distinct, ?_, ?_⟩
    · intro attempt hattempt hplaced
      rw [← hlandedIff attempt, Option.isSome_iff_exists] at hplaced
      obtain ⟨stop, hstop⟩ := hplaced
      have hok := hlive attempt hattempt stop hstop
      have hid := clientAlgoId_of_landed hstop
      rcases hreturned _ hok with ⟨other, hother, orderId, hplace⟩ |
        ⟨other, hother, error, landed, found, hplace, hdup, hlookup, hfound⟩
      · -- the accepted order is returned as well, so that the two attempts share an id
        obtain ⟨stop', hstop', hiff⟩ := haccepted other hother orderId hplace
        have hids := congrArg ConditionalOrderResult.clientOrderId ((hiff _).mp hok).1
        have : sentId req other = sentId req attempt := by
          rw [← clientAlgoId_of_landed hstop', ← hid]
          exact hids
        rw [← hsame other hother attempt hattempt this]
        exact ⟨orderId, hplace⟩
      · -- the lookup asked for the id of an attempt that was refused
        have hids := congrArg ConditionalOrderResult.clientOrderId hfound
        have hfoundId : sentId req attempt = attemptClientId req.clientOrderId other := by
          rw [← hid, ← honest.lookup other found hlookup]
          exact hids
        have : sentId req attempt = sentId req other := by
          have hidem := congrArg clientAlgoId hfoundId
          rwa [sentId, clientAlgoId_clientAlgoId] at hidem
        have hequal := hsame attempt hattempt other hother this
        rw [hequal, landedStop, hplace, honest.duplicate other error landed hplace hdup] at hstop
        cases hstop
    · intro attempt hattempt htold hraises
      obtain ⟨orderId, hplace⟩ := htold
      obtain ⟨stop, hstop, hiff⟩ := haccepted attempt hattempt orderId hplace
      exact ((hiff _).mp (hlive attempt hattempt stop hstop)).2 hraises
  · rintro ⟨hroom, htold, hcancel⟩
    refine ⟨(nodup_sentIds_iff (callAttempts_inOrder r req)).mpr hroom, ?_, ?_⟩
    · rw [hbook]
      refine length_landed_le_one (fun _ _ _ => toldLive_last_call) fun attempt hattempt hsome => ?_
      exact htold attempt hattempt (by rw [← hlandedIff attempt]; exact hsome)
    · intro stop hmem
      rw [hbook] at hmem
      obtain ⟨attempt, hattempt, hstop⟩ := List.mem_filterMap.mp hmem
      have hlive : toldLive r attempt :=
        htold attempt hattempt (by rw [← hlandedIff attempt, hstop]; rfl)
      obtain ⟨orderId, hplace⟩ := hlive
      obtain ⟨stop', hstop', hiff⟩ := haccepted attempt hattempt orderId hplace
      obtain rfl : stop = stop' := Option.some.inj (hstop.symm.trans hstop')
      exact (hiff _).mpr ⟨rfl, hcancel attempt hattempt ⟨orderId, hplace⟩⟩

end Recovery

/-! ### A retried attempt -/

/-- A long position with its stop on the book. -/
def guardedLong : Exchange where
  positionSide := .long
  orders := [{ orderId := "1", clientAlgoId := "sl-1", side := .sell, triggerPrice := 95,
               quantity := 1, closePosition := false }]

/-- The stop is moved up, reduce-only. -/
def moveUp : ReplaceSl where
  symbol := "BTCUSDT"
  existingOrderId := "1"
  newTriggerPrice := 98
  newQuantity := 1
  clientOrderId := "sl-2"
  closePosition := false

/-- The first attempt is answered with a 503, and the second is accepted. -/
def unavailableOnce (landed : Option String) : Replies where
  side := .snapshot { side := .long, size := 1, markPrice := 100 }
  cancel := .accepted
  cancelConflict := .accepted
  place := fun attempt =>
    if attempt = 0 then
      .rejected { statusCode := 503, code := none, message := "Service Unavailable" } landed
    else .accepted "3"
  lookup := fun _ => .notFound
  classify := fun _ => .raised
  exhausted := .raised

theorem keepsIds_unavailableOnce {landed : Option String}
    (h : ∀ orderId ∈ landed, orderId ∉ knownIds guardedLong moveUp) :
    KeepsIds (unavailableOnce landed) moveUp guardedLong where
  fresh := by
    intro attempt orderId hplaced
    by_cases hzero : attempt = 0
    · simp only [unavailableOnce, hzero, PlaceReply.placedId] at hplaced
      exact h orderId hplaced
    · simp only [unavailableOnce, hzero, if_false, PlaceReply.placedId,
        Option.mem_some_iff] at hplaced
      rw [← hplaced]
      decide
  lookup := by
    intro attempt order hfound
    simp [unavailableOnce] at hfound
  duplicate := by
    intro attempt error landed' hplace hdup
    by_cases hzero : attempt = 0
    · simp only [unavailableOnce, hzero, if_true, PlaceReply.rejected.injEq] at hplace
      rw [← hplace.1] at hdup
      exact absurd hdup (by decide)
    · simp [unavailableOnce, hzero] at hplace

/-- If the first request has not landed, the retry moves the stop. -/
theorem recoversLost_notLanded : RecoversLost (unavailableOnce none) moveUp guardedLong := by
  refine (recoversLost_iff (keepsIds_unavailableOnce (by simp))).mpr ⟨by decide, ?_, ?_⟩
  · intro attempt hattempt hplaced
    rcases List.mem_cons.mp hattempt with rfl | hattempt
    · exact absurd hplaced (by decide)
    · obtain rfl := List.mem_singleton.mp hattempt
      exact ⟨"3", rfl⟩
  · rintro attempt - - ⟨-, message, effective, hraised⟩
    cases hraised

/-- If the first request has landed, the retry leaves a second stop on the book. -/
theorem secondStop_afterLanded :
    KeepsIds (unavailableOnce (some "2")) moveUp guardedLong ∧
      ¬RecoversLost (unavailableOnce (some "2")) moveUp guardedLong := by
  refine ⟨keepsIds_unavailableOnce (by decide), fun recovers => ?_⟩
  have htwo : (newStops (knownIds guardedLong moveUp)
      (cancelAndReplaceSl (unavailableOnce (some "2")) guardedLong moveUp).2).length = 2 := by
    decide +kernel
  have hone := recovers.single
  omega

end BinanceAdapter
end AdviserConstructor
