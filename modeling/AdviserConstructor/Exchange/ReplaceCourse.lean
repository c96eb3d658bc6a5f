import AdviserConstructor.Exchange.BinanceSl
import AdviserConstructor.Position.Context

/-!
# What the answers to a closePosition move amount to

A move of a closePosition stop makes up to a dozen requests, but for the protection of the
position three things about the answers matter: how the attempts end, whether some order landed
on the way although its attempt was answered with an error, and whether the old stop was
cancelled.  `moveCourse` reads them off the answers alone, without a book.

* `attemptLoop_course`, `cancelAndReplaceSl_course`: the adapter ends as the course says, and a
  stop with the closing side is on the book afterwards exactly if one survives, landed or was
  placed.

The position is taken to be open: `Honest` says that `get_position` reports it or fails, and
that the exchange gives no order the id of another.
-/

namespace AdviserConstructor
namespace BinanceAdapter

/-! ## The course of the attempts -/

/-- How the attempts end. -/
inductive Ending where
  | placed
  /-- an attempt was taken for a duplicate of an order that the lookup found -/
  | recovered
  /-- an attempt was rejected because it would trigger immediately -/
  | skipped
  /-- anything else, which the queue escalates -/
  | failed
  deriving DecidableEq, Repr

/-- What the answers to the attempts amount to. -/
structure Course where
  ending : Ending
  /-- some attempt was answered with an error and is on the book all the same -/
  landed : Bool := false
  /-- the cancel after a conflict took effect -/
  cancelledAgain : Bool := false
  deriving DecidableEq, Repr

/-- The course behind a rejected attempt that was not recovered. -/
def courseAfterRejection (r : Replies) (req : ReplaceSl) (error : BinanceAPIError)
    (resolved : Bool) (next : Bool → Course) : Course :=
  if hasRealExisting req.existingOrderId && isClosePositionConflictError error then
    if resolved then { ending := .failed }
    else
      match r.cancelConflict with
      | .accepted => { next true with cancelledAgain := true }
      | .rejected effective | .raised _ effective =>
          { ending := .failed, cancelledAgain := effective }
  else if hasCode error immediateTriggerCodes then { ending := .skipped }
  else next resolved

/-- The course of the attempts that are left. -/
def course (r : Replies) (req : ReplaceSl) : List ℕ → Bool → Course
  | [], _ => { ending := .failed }
  | attempt :: rest, resolved =>
      match r.place attempt with
      | .accepted _ => { ending := .placed }
      | .raised _ landed => { ending := .failed, landed := landed.isSome }
      | .rejected error landed =>
          let behind :=
            if isDuplicateClientIdError error then
              match r.lookup attempt with
              | .found _ => { ending := .recovered }
              | .raised _ => { ending := .failed }
              | .notFound => courseAfterRejection r req error resolved (course r req rest)
            else courseAfterRejection r req error resolved (course r req rest)
          { behind with landed := behind.landed || landed.isSome }

/-- The course of a closePosition move. -/
def moveCourse (r : Replies) (req : ReplaceSl) : Course :=
  if hasRealExisting req.existingOrderId then
    match r.cancel with
    | .accepted => course r req [0, 1, 2, 3] true
    | .rejected _ => course r req [0, 1, 2, 3] false
    | .raised _ _ => { ending := .failed }
  else course r req [0, 1, 2, 3] false

/-! ## An open position on an honest exchange -/

/-- `get_position` reports the open position, or fails. -/
def ReportsOpen (x : Exchange) (reply : PositionReply) : Prop :=
  reply = .raised ∨
    ∃ live, reply = .snapshot live ∧ live.side = x.positionSide ∧ flatEpsilon < |live.size|

/-- The answers speak of a position that is open throughout, and new orders get new ids. -/
structure Honest (r : Replies) (req : ReplaceSl) (x : Exchange) : Prop where
  side : ReportsOpen x r.side
  classify : ∀ attempt, ReportsOpen x (r.classify attempt)
  exhausted : ReportsOpen x r.exhausted
  fresh : ∀ attempt, ∀ orderId ∈ (r.place attempt).placedId, orderId ≠ req.existingOrderId

/-- The side of an order that closes the position. -/
def closingSide (x : Exchange) : OrderSide := PositionContext.closingOrderSide x.positionSide

/-- A stop with side `side` is on the book. -/
def Guarded (x : Exchange) (side : OrderSide) : Prop := ∃ o ∈ x.orders, o.side = side

/-- A stop with side `side` stays on the book, also when the stop `orderId` is `cancelled`. -/
def Survives (x : Exchange) (orderId : String) (cancelled : Bool) (side : OrderSide) : Prop :=
  ∃ o ∈ x.orders, o.side = side ∧ (cancelled = true → o.orderId ≠ orderId)

/-- `get_position` failed where the side of the stop was asked for, and the position is short;
the adapter then assumes a long one. -/
def WrongSide (r : Replies) (x : Exchange) : Prop := x.positionSide = .short ∧ r.side = .raised

variable {x x₀ : Exchange}

theorem ReportsOpen.not_flat {reply : PositionReply} (h : ReportsOpen x reply) :
    verifiedFlat reply = false := by
  rcases h with rfl | ⟨live, rfl, -, hsize⟩
  · rfl
  · exact decide_eq_false (not_le.mpr hsize)

variable {r : Replies}

theorem resolveStopLossSide_eq_iff (h : ReportsOpen x r.side) :
    resolveStopLossSide r.side = closingSide x ↔ ¬WrongSide r x := by
  rcases h with hr | ⟨live, hr, hside, -⟩
  · rw [closingSide, WrongSide, hr]
    cases x.positionSide <;> simp [resolveStopLossSide, PositionContext.closingOrderSide]
  · rw [closingSide, WrongSide, hr, resolveStopLossSide, hside]
    cases x.positionSide <;> simp [PositionContext.closingOrderSide]

variable {closing side : OrderSide}

theorem survives_false {orderId : String} : Survives x orderId false side ↔ Guarded x side := by
  simp [Survives, Guarded]

theorem cancelExistingSl_survives (reply : CancelReply) (x : Exchange) (orderId : String)
    (cancelled : Bool) (side : OrderSide) :
    Survives (cancelExistingSl reply x orderId).2 orderId cancelled side ↔
      Survives x orderId (cancelled || reply.effective) side := by
  rw [cancelExistingSl_book]
  cases reply.effective with
  | false => simp
  | true =>
    simp only [if_true, Bool.or_true, Survives, List.mem_filter, decide_eq_true_eq, forall_const]
    constructor
    · rintro ⟨o, ⟨ho, hne⟩, hside, -⟩
      exact ⟨o, ho, hside, hne⟩
    · rintro ⟨o, ho, hside, hne⟩
      exact ⟨o, ⟨ho, hne⟩, hside, fun _ => hne⟩

theorem placeStopLoss_survives {reply : PlaceReply} {quantity triggerPrice : ℚ}
    {clientOrderId : String} {closePosition : Bool} {orderId : String} (cancelled : Bool)
    (hfresh : ∀ newId ∈ reply.placedId, newId ≠ orderId) :
    Survives
        (placeStopLoss r reply x side quantity triggerPrice clientOrderId closePosition).2
        orderId cancelled closing ↔
      Survives x orderId cancelled closing ∨ (reply.placedId.isSome = true ∧ side = closing) := by
  rw [Survives, placeStopLoss_orders]
  cases hid : reply.placedId with
  | none => simp [Survives]
  | some newId =>
    have hne : newId ≠ orderId := hfresh newId hid
    simp only [Option.map_some, Option.toList_some, List.mem_append, List.mem_singleton,
      Option.isSome_some, true_and]
    constructor
    · rintro ⟨o, ho | rfl, hside, hkept⟩
      · exact Or.inl ⟨o, ho, hside, hkept⟩
      · exact Or.inr hside
    · rintro (⟨o, ho, hside, hkept⟩ | hside)
      · exact ⟨o, Or.inl ho, hside, hkept⟩
      · exact ⟨_, Or.inr rfl, hside, fun _ => hne⟩

/-! ## The adapter follows the course -/

/-- The attempts ended as the course says. -/
def Ending.describes : Ending → Attempts → Prop
  | .placed, res | .recovered, res => ∃ order, res = .placed order
  | .skipped, res => ∃ code, res = .raised (.wouldImmediatelyTrigger code)
  | .failed, res => (∃ lastError, res = .gaveUp lastError) ∨
      ∃ message, res = .raised (.other message)

/-- The attempts ended as the course says and left the book as it says. -/
structure Follows (c : Course) (req : ReplaceSl) (side closing : OrderSide) (x : Exchange)
    (res : Attempts × Exchange) : Prop where
  describes : c.ending.describes res.1
  guarded : Guarded res.2 closing ↔
    Survives x req.existingOrderId c.cancelledAgain closing ∨
      ((c.landed = true ∨ c.ending = .placed) ∧ side = closing)

theorem classifyError_of_immediate {error : BinanceAPIError} (live : PositionReply)
    (h : hasCode error immediateTriggerCodes = true) :
    classifyError error live = some (.wouldImmediatelyTrigger error.code) := by
  rw [classifyError, if_pos h]

theorem classifyError_of_not_immediate {error : BinanceAPIError} {live : PositionReply}
    (hlive : ReportsOpen x live) (h : hasCode error immediateTriggerCodes = false) :
    classifyError error live = none ∨ ∃ message, classifyError error live =
      some (.transient message) := by
  rw [classifyError, if_neg (by simp [h])]
  split
  · exact Or.inr ⟨_, rfl⟩
  · rw [hlive.not_flat]
    split
    · split
      · exact Or.inl rfl
      · exact Or.inr ⟨_, rfl⟩
    · exact Or.inl rfl

variable {req : ReplaceSl}

theorem afterRejection_follows {attempt : ℕ} {error : BinanceAPIError} {resolved : Bool}
    {continue_ : Bool → Exchange → Attempts × Exchange} {next : Bool → Course}
    (hclose : req.closePosition = true) (hlive : ReportsOpen x₀ (r.classify attempt))
    (hnext : ∀ resolved x', Follows (next resolved) req side closing x' (continue_ resolved x')) :
    Follows (courseAfterRejection r req error resolved next) req side closing x
      (afterRejection r req attempt error resolved x continue_) := by
  unfold courseAfterRejection afterRejection
  rw [hclose, Bool.true_and]
  by_cases hconflict :
      (hasRealExisting req.existingOrderId && isClosePositionConflictError error) = true
  · rw [if_pos hconflict, if_pos hconflict]
    cases resolved with
    | true =>
      refine ⟨Or.inl ⟨_, rfl⟩, ?_⟩
      simp [survives_false]
    | false =>
      have hcancel := cancelExistingSl_survives r.cancelConflict x req.existingOrderId
      cases hreply : r.cancelConflict with
      | accepted =>
        rw [hreply] at hcancel
        have hrest := hnext true (cancelExistingSl .accepted x req.existingOrderId).2
        refine ⟨hrest.describes, hrest.guarded.trans ?_⟩
        exact or_congr_left ((hcancel _ _).trans (by simp [CancelReply.effective]))
      | rejected effective =>
        rw [hreply] at hcancel
        refine ⟨Or.inl ⟨_, rfl⟩, ?_⟩
        show Guarded (cancelExistingSl (.rejected effective) x req.existingOrderId).2 closing ↔ _
        rw [← survives_false, hcancel]
        simp [CancelReply.effective]
      | raised message effective =>
        rw [hreply] at hcancel
        refine ⟨Or.inr ⟨message, rfl⟩, ?_⟩
        show Guarded (cancelExistingSl (.raised message effective) x req.existingOrderId).2
          closing ↔ _
        rw [← survives_false, hcancel]
        simp [CancelReply.effective]
  · rw [if_neg hconflict, if_neg hconflict]
    cases himm : hasCode error immediateTriggerCodes with
    | true =>
      rw [classifyError_of_immediate _ himm]
      refine ⟨⟨error.code, rfl⟩, ?_⟩
      simp [survives_false]
    | false =>
      rcases classifyError_of_not_immediate hlive himm with hc | ⟨message, hc⟩
      · rw [hc]
        exact hnext resolved x
      · rw [hc]
        exact hnext resolved x

theorem Follows.of_placement (r : Replies) (reply : PlaceReply) (clientOrderId : String)
    {c : Course} {res : Attempts × Exchange}
    (hfresh : ∀ orderId ∈ reply.placedId, orderId ≠ req.existingOrderId)
    (h : Follows c req side closing
      (placeStopLoss r reply x side req.newQuantity req.newTriggerPrice clientOrderId
        req.closePosition).2 res) :
    Follows { c with landed := c.landed || reply.placedId.isSome } req side closing x res := by
  refine ⟨h.describes, h.guarded.trans ?_⟩
  rw [placeStopLoss_survives c.cancelledAgain hfresh]
  simp only [Bool.or_eq_true]
  tauto

theorem Follows.of_ending {c : Ending} {res : Attempts} (h : c.describes res)
    (hplaced : c ≠ .placed) : Follows { ending := c } req side closing x (res, x) :=
  ⟨h, by simp [survives_false, hplaced]⟩

/-- **The attempts follow their course.** -/
theorem attemptLoop_course (hclose : req.closePosition = true) (honest : Honest r req x₀)
    (side closing : OrderSide) (attempts : List ℕ) (lastError : Option BinanceAPIError)
    (resolved : Bool) (x : Exchange) :
    Follows (course r req attempts resolved) req side closing x
      (attemptLoop r req side attempts lastError resolved x) := by
  induction attempts generalizing lastError resolved x with
  | nil => exact .of_ending (Or.inl ⟨lastError, rfl⟩) (by simp)
  | cons attempt rest ih =>
    have hfresh := honest.fresh attempt
    unfold course attemptLoop
    cases hreply : r.place attempt with
    | accepted orderId =>
      rw [hreply] at hfresh
      refine ⟨⟨_, rfl⟩, ?_⟩
      show Guarded (placeStopLoss r (.accepted orderId) x side req.newQuantity
        req.newTriggerPrice (attemptClientId req.clientOrderId attempt) req.closePosition).2
        closing ↔ _
      rw [← survives_false, placeStopLoss_survives false hfresh]
      simp [PlaceReply.placedId]
    | raised message landed =>
      rw [hreply] at hfresh
      have hending : Ending.failed.describes (.raised (.other message)) := Or.inr ⟨message, rfl⟩
      exact .of_placement r (.raised message landed) (attemptClientId req.clientOrderId attempt)
        hfresh (.of_ending hending (by simp))
    | rejected error landed =>
      rw [hreply] at hfresh
      have hafter : ∀ x', Follows
          (courseAfterRejection r req error resolved (course r req rest)) req side closing x'
          (afterRejection r req attempt error resolved x'
            (attemptLoop r req side rest (some error))) :=
        fun x' => afterRejection_follows hclose (honest.classify attempt)
          fun resolved' x'' => ih (some error) resolved' x''
      refine .of_placement r (.rejected error landed) (attemptClientId req.clientOrderId attempt)
        hfresh ?_
      generalize hp : placeStopLoss r (.rejected error landed) x side req.newQuantity
        req.newTriggerPrice (attemptClientId req.clientOrderId attempt) req.closePosition = p
      obtain ⟨placement, x'⟩ := p
      obtain rfl : Placement.rejected error = placement := congrArg Prod.fst hp
      by_cases hdup : isDuplicateClientIdError error = true
      · simp only [hdup]
        cases hlookup : r.lookup attempt with
        | found order =>
          have hending : Ending.recovered.describes (.placed (stopLossResult order)) := ⟨_, rfl⟩
          exact .of_ending hending (by simp)
        | notFound => exact hafter x'
        | raised message =>
          have hending : Ending.failed.describes (.raised (.other message)) :=
            Or.inr ⟨message, rfl⟩
          exact .of_ending hending (by simp)
      · simp only [hdup, Bool.false_eq_true]
        exact hafter x'

/-! ## The move -/

/-- The move ended as the course says. -/
def Ending.reports : Ending → Except TaskError ConditionalOrderResult → Prop
  | .placed, res | .recovered, res => ∃ order, res = .ok order
  | .skipped, res => ∃ code, res = .error (.wouldImmediatelyTrigger code)
  | .failed, res => ∃ message, res = .error (.other message)

/-- The old stop was cancelled, before the attempts or after a conflict. -/
def oldStopCancelled (r : Replies) (req : ReplaceSl) : Bool :=
  hasRealExisting req.existingOrderId && r.cancel.effective || (moveCourse r req).cancelledAgain

theorem concludeReplace_follows {c : Course} {res : Attempts × Exchange}
    (hclose : req.closePosition = true) (hexhausted : ReportsOpen x₀ r.exhausted)
    (h : Follows c req side closing x res) :
    c.ending.reports (concludeReplace r req res).1 ∧
      (Guarded (concludeReplace r req res).2 closing ↔
        Survives x req.existingOrderId c.cancelledAgain closing ∨
          ((c.landed = true ∨ c.ending = .placed) ∧ side = closing)) := by
  have hdescribes := h.describes
  have hguarded := h.guarded
  obtain ⟨attempts, x'⟩ := res
  have hbook : (concludeReplace r req (attempts, x')).2 = x' := by
    cases attempts <;> simp [concludeReplace, hclose]
  refine ⟨?_, by rw [hbook]; exact hguarded⟩
  cases hending : c.ending with
  | placed =>
    rw [hending] at hdescribes
    obtain ⟨order, horder⟩ := hdescribes
    cases horder
    exact ⟨order, by simp [concludeReplace, hclose]⟩
  | recovered =>
    rw [hending] at hdescribes
    obtain ⟨order, horder⟩ := hdescribes
    cases horder
    exact ⟨order, by simp [concludeReplace, hclose]⟩
  | skipped =>
    rw [hending] at hdescribes
    obtain ⟨code, hcode⟩ := hdescribes
    cases hcode
    exact ⟨code, rfl⟩
  | failed =>
    rw [hending] at hdescribes
    rcases hdescribes with ⟨lastError, hlast⟩ | ⟨message, hmessage⟩
    · cases hlast
      refine ⟨"Unable to place replacement stop-loss after 3 retries.", ?_⟩
      simp [concludeReplace, exhaustedError, hexhausted.not_flat]
    · cases hmessage
      exact ⟨message, rfl⟩

/-- **A closePosition move follows its course**: it ends as the course says, and a stop with the
closing side is on the book afterwards exactly if one survived the cancels, landed or was
placed. -/
theorem cancelAndReplaceSl_course (hclose : req.closePosition = true) (honest : Honest r req x)
    (closing : OrderSide) :
    (moveCourse r req).ending.reports (cancelAndReplaceSl r x req).1 ∧
      (Guarded (cancelAndReplaceSl r x req).2 closing ↔
        Survives x req.existingOrderId (oldStopCancelled r req) closing ∨
          (((moveCourse r req).landed = true ∨ (moveCourse r req).ending = .placed) ∧
            resolveStopLossSide r.side = closing)) := by
  -- behind the cancel the move is its attempts
  have hrest : ∀ resolved x', _ := fun resolved x' =>
    concludeReplace_follows hclose honest.exhausted
      (attemptLoop_course hclose honest (resolveStopLossSide r.side) closing [0, 1, 2, 3] none
        resolved x')
  unfold cancelAndReplaceSl
  rw [hclose]
  cases hreal : hasRealExisting req.existingOrderId with
  | false =>
    simp only [moveCourse, oldStopCancelled, hreal, Bool.false_and, Bool.false_eq_true, if_false]
    exact hrest false x
  | true =>
    have hcancel := cancelExistingSl_survives r.cancel x req.existingOrderId
    simp only [moveCourse, oldStopCancelled, hreal, Bool.true_and, if_true]
    cases hreply : r.cancel with
    | accepted =>
      rw [hreply] at hcancel
      obtain ⟨hreports, hguarded⟩ :=
        hrest true (cancelExistingSl .accepted x req.existingOrderId).2
      refine ⟨hreports, hguarded.trans (or_congr_left ?_)⟩
      rw [hcancel, Bool.or_comm]
    | rejected effective =>
      rw [hreply] at hcancel
      obtain ⟨hreports, hguarded⟩ :=
        hrest false (cancelExistingSl (.rejected effective) x req.existingOrderId).2
      refine ⟨hreports, hguarded.trans (or_congr_left ?_)⟩
      rw [hcancel, Bool.or_comm]
    | raised message effective =>
      rw [hreply] at hcancel
      refine ⟨⟨message, rfl⟩, ?_⟩
      show Guarded (cancelExistingSl (.raised message effective) x req.existingOrderId).2
        closing ↔ _
      rw [← survives_false, hcancel]
      simp

end BinanceAdapter
end AdviserConstructor
