import Veridex.DustExecution.Emergency
import Veridex.DustExecution.Intents
import Veridex.Lib.Prog

/-!
# The injected surfaces and the calls a run makes

The lane does no I/O of its own: the clock, the quote source, the venue adapter, the signer, the
write port and the operator interlock store are injected. A surface is a function of everything
that was asked and answered before (`List Call`), so it may answer, raise or change its mind in any
way; one that the adapter may lack is an `Option`. `World` holds the calls made so far with their
answers, the safety session and the next `sequence_no` of the lifecycle stream.

The controller's own clock only stamps the events of the safety session, and its readings are not
recorded.
-/

namespace Veridex.DustExecution

open Veridex.Py Veridex.Lib

/-! ## What is asked and answered -/

/-- `BookSide`. -/
structure BookSide where
  price : PyFloat
  size : PyFloat
  deriving DecidableEq, Repr

/-- `DustQuote`. -/
structure DustQuote where
  tokenId : String
  quoteTsS : ℤ
  eventSuspended : Bool := false
  noQuote : Bool := false
  bid : Option BookSide := none
  ask : Option BookSide := none
  deriving DecidableEq, Repr

/-- `PrivyAuthContext` (`privy_control_plane.py`). -/
structure PrivyAuthContext where
  requestExpiryMs : ℤ
  quorumSignatures : List String
  quorumThreshold : ℤ
  idempotencyKey : String
  deriving DecidableEq, Repr

/-- What `ModeBWritePort.submit_order` is called with. -/
structure WireOrder where
  tokenId : String
  side : Side
  nativePrice : PyFloat
  size : ℚ
  tif : TimeInForce
  postOnly : Bool
  tickSize : PyFloat
  binding : ExecutionWalletBinding
  auth : PrivyAuthContext
  expirationS : ℤ := 0
  deriving DecidableEq

/-- `L2SubmitResult` (`l2_transport.py`), as far as the runner reads it. -/
structure L2SubmitResult where
  presubmitRecord : PreSubmitRecord
  response : Value

/-- `SigningPayload` (`signer.py`). The tick is printed into its text field. -/
structure SigningPayload where
  tokenId : String
  side : Side
  nativePrice : UnitPrice
  size : ℚ
  tif : TimeInForce
  tickSize : PyFloat
  clientOrderId : String
  deriving DecidableEq

/-- `OperatorInterlockEvent` (`contracts.py`). -/
structure OperatorInterlockEvent extends EventEnvelope where
  precondition : String
  satisfied : Bool
  operatorAuthorizationRef : Option String
  firstOrderAuthorized : Bool
  deriving DecidableEq, Repr

/-- What an operator interlock receipt is bound to. -/
structure InterlockBinding where
  sessionId : String
  events : List OperatorInterlockEvent
  operatorAuthorizationRef : Option String
  armingAttemptRef : String
  deriving DecidableEq, Repr

/-- A call of an injected surface, with its answer. -/
inductive Call where
  | now (answer : Except PyExc ℤ)
  | readQuote (tokenId : String) (answer : Except PyExc DustQuote)
  | getOrders (answer : Except PyExc Value)
  | getOrder (orderId : String) (answer : Except PyExc Value)
  | getFillHistory (venueOrderKey : String) (answer : Except PyExc Value)
  | cancelAllOrders (answer : Except PyExc ℤ)
  | cancelSingleOrder (orderId : String) (answer : Except PyExc Value)
  | submitOrder (order : WireOrder) (answer : Except PyExc L2SubmitResult)
  | signOrder (payload : SigningPayload) (orderDigest : Except PyExc String)
  | recordInterlock (binding : InterlockBinding) (receipt : Except PyExc String)
  | verifyInterlock (binding : InterlockBinding) (receipt : String) (answer : Except PyExc Bool)

namespace Call

/-- An order on the money-moving wire. -/
def isSubmit : Call → Bool
  | submitOrder _ _ => true
  | _ => false

/-- A sweep of the resting orders. -/
def isSweep : Call → Bool
  | cancelAllOrders _ => true
  | _ => false

/-- Neither an order nor a sweep. -/
def isQuiet (call : Call) : Bool := !call.isSubmit && !call.isSweep

end Call

/-! ## The surfaces -/

/-- A surface that takes an argument. -/
abbrev Surface (α β : Type) := List Call → α → Except PyExc β

/-- The venue adapter. `textOf` prints what the sources only compare with an id or a status. -/
structure Adapter where
  getOrders : Option (Surface Unit Value)
  getOrder : Option (Surface String Value)
  getFillHistory : Option (Surface String Value)
  cancelAllOrders : Option (Surface Unit ℤ)
  cancelSingleOrder : Option (Surface String Value)
  textOf : Value → String

/-- `SignerMode`. -/
inductive SignerMode where
  | fakeLocal
  | privyEvm
  deriving DecidableEq, Repr

/-- `Signer`: its label and `sign_order`, of which the order digest is read. -/
structure Signer where
  mode : SignerMode
  signOrder : Surface SigningPayload String

/-- `ModeBWritePort.submit_order`. -/
abbrev ModeBWritePort := Surface WireOrder L2SubmitResult

/-- `OperatorInterlockStore`. -/
structure OperatorInterlockStore where
  record : Surface InterlockBinding String
  verify : Surface (InterlockBinding × String) Bool

/-- The seams every run is given. -/
structure Seams where
  adapter : Adapter
  signer : Signer
  readQuote : Surface String DustQuote
  nowFn : Surface Unit ℤ
  clockMs : List Call → ℤ

/-! ## The world -/

/-- What a run reads and writes. -/
structure World where
  history : List Call
  session : DustSafetySession
  nextSeq : ℕ := 1

/-- A computation of the lane. -/
abbrev Lane (α : Type) : Type := Prog World PyExc α

namespace World

/-- A call is made. -/
def record (w : World) (call : Call) : World := { w with history := w.history ++ [call] }

@[simp] theorem record_history (w : World) (call : Call) :
    (w.record call).history = w.history ++ [call] := rfl

@[simp] theorem record_session (w : World) (call : Call) : (w.record call).session = w.session :=
  rfl

end World

/-- Ask a surface: the call is made whether it answers or raises. -/
def ask {α β : Type} (surface : Surface α β) (arg : α) (entry : Except PyExc β → Call) :
    Lane β := do
  let w ← get
  let answer := surface w.history arg
  modify fun w => w.record (entry answer)
  Prog.ofExcept answer

/-- `now_fn()`. -/
def nowS (seams : Seams) : Lane ℤ := ask seams.nowFn () .now

/-- `_SeqCounter.next`. -/
def nextSeq : Lane ℕ := do
  let w ← get
  modify fun w => { w with nextSeq := w.nextSeq + 1 }
  return w.nextSeq

@[simp] theorem exec_ask {α β : Type} (surface : Surface α β) (arg : α)
    (entry : Except PyExc β → Call) (w : World) :
    (ask surface arg entry).exec w =
      (surface w.history arg, w.record (entry (surface w.history arg))) := by
  unfold ask
  rw [Prog.exec_bind_ok Prog.exec_get, Prog.exec_bind_ok (Prog.exec_modify _)]
  exact Prog.exec_ofExcept _

/-- A sequence that starts with a question. -/
theorem exec_ask_cases {α β γ : Type} {surface : Surface α β} {arg : α}
    {entry : Except PyExc β → Call} {f : β → Lane γ} {w w' : World} {r : Except PyExc γ}
    (h : (ask surface arg entry >>= f).exec w = (r, w')) :
    (∃ e, surface w.history arg = .error e ∧ r = .error e ∧ w' = w.record (entry (.error e))) ∨
      ∃ b, surface w.history arg = .ok b ∧ (f b).exec (w.record (entry (.ok b))) = (r, w') := by
  rcases Prog.exec_bind_cases h with ⟨e, hask, hr⟩ | ⟨b, t, hask, hf⟩
  · rw [exec_ask] at hask
    obtain ⟨hanswer, rfl⟩ := Prod.mk.inj hask
    exact .inl ⟨e, hanswer, hr, by rw [hanswer]⟩
  · rw [exec_ask] at hask
    obtain ⟨hanswer, rfl⟩ := Prod.mk.inj hask
    refine .inr ⟨b, hanswer, ?_⟩
    rwa [← hanswer]

/-- A sequence that returns from a question: the question was answered. -/
theorem exec_ask_returned {α β γ : Type} {surface : Surface α β} {arg : α}
    {entry : Except PyExc β → Call} {f : β → Lane γ} {w w' : World} {c : γ}
    (h : (ask surface arg entry >>= f).exec w = (.ok c, w')) :
    ∃ b, surface w.history arg = .ok b ∧ (f b).exec (w.record (entry (.ok b))) = (.ok c, w') := by
  obtain ⟨e, -, herr, -⟩ | hanswered := exec_ask_cases h
  · simp at herr
  · exact hanswered

@[simp] theorem exec_nextSeq (w : World) :
    nextSeq.exec w = (.ok w.nextSeq, { w with nextSeq := w.nextSeq + 1 }) := rfl

/-! ## What calls keep -/

/-- The history has grown by calls that satisfy `P`. -/
abbrev Calls (P : Call → Prop) : World → World → Prop := Prog.Grows World.history P

/-- The safety session is left alone. -/
def SessionKept (w w' : World) : Prop := w'.session = w.session

/-- A blocked session stays blocked. -/
def BlockKept (w w' : World) : Prop :=
  w.session.submitBlocked = true → w'.session.submitBlocked = true

instance : Std.Refl SessionKept := ⟨fun _ => rfl⟩

instance : IsTrans World SessionKept := ⟨fun _ _ _ h h' => Eq.trans h' h⟩

instance : Std.Refl BlockKept := ⟨fun _ => id⟩

instance : IsTrans World BlockKept := ⟨fun _ _ _ h h' hb => h' (h hb)⟩

/-- No order, no sweep, and the safety session left alone. -/
def Quiet (w w' : World) : Prop := Calls (fun call => call.isQuiet = true) w w' ∧ SessionKept w w'

instance : Std.Refl Quiet := ⟨fun w => ⟨Std.Refl.refl w, Std.Refl.refl w⟩⟩

instance : IsTrans World Quiet := ⟨fun _ _ _ h h' =>
  ⟨IsTrans.trans _ _ _ h.1 h'.1, IsTrans.trans _ _ _ h.2 h'.2⟩⟩

section Ask

variable {α β : Type} {surface : Surface α β} {arg : α} {entry : Except PyExc β → Call}
  {P : Call → Prop}

theorem calls_ask (h : ∀ answer, P (entry answer)) :
    Prog.Keeps (Calls P) (ask surface arg entry) := fun w => by
  rw [exec_ask]
  exact ⟨[_], rfl, by simpa using h _⟩

theorem sessionKept_ask : Prog.Keeps SessionKept (ask surface arg entry) := fun w => by
  rw [exec_ask]
  rfl

theorem quiet_ask (h : ∀ answer, (entry answer).isQuiet = true) :
    Prog.Keeps Quiet (ask surface arg entry) :=
  fun w => ⟨calls_ask h w, sessionKept_ask w⟩

theorem quiet_record {w : World} {call : Call} (h : call.isQuiet = true) :
    Quiet w (w.record call) := ⟨⟨[call], rfl, by simpa using h⟩, rfl⟩

theorem quiet_nextSeq : Prog.Keeps Quiet nextSeq := fun _ => ⟨⟨[], by simp⟩, rfl⟩

theorem calls_nextSeq : Prog.Keeps (Calls P) nextSeq := fun w => ⟨[], by simp [exec_nextSeq]⟩

theorem SessionKept.blockKept {w w' : World} (h : SessionKept w w') : BlockKept w w' := by
  intro hb
  rw [h]
  exact hb

end Ask

end Veridex.DustExecution
