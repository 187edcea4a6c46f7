import Filehost.Data.Transition
import Filehost.Ip.Address
import Mathlib.Algebra.Order.Field.Rat

namespace Filehost.RateLimit

open Filehost.Data Filehost.Ip

/-! # Bodies that wait for their throttle

A body is polled for its items.  The throttle and the timers are asked on the way,
so what they answer comes with the poll. -/

abbrev Bytes := List UInt8

inductive BodySize where
  | none
  | sized (bytes : Nat)
  | stream

/-- An item is a chunk, an error, or the end. -/
abbrev BodyItem (Error : Type) := Option (Except Error Bytes)

inductive Poll (Error : Type) where
  | pending
  | ready (item : BodyItem Error)

def Poll.items {Error : Type} : Poll Error → List (BodyItem Error)
  | .pending => []
  | .ready item => [item]

class MessageBody (Body : Type) (Context Error : outParam Type) where
  size : Body → BodySize
  pollNext : Body → Context → Poll Error × Body

/-- What the poll of a throttled body meets besides its inner body: the answer of
`reserve`, and the sleeps that are over. -/
structure ThrottleContext (Context : Type) where
  inner : Context
  reserve : IpAddr → Nat → ℚ → ℚ → Option ℚ
  isOver : ℚ → Bool

/-- `buffered` holds a chunk back until its sleep, of the length given, is over. -/
structure ThrottledBody (Body : Type) where
  inner : Body
  ip : IpAddr
  rate : ℚ
  burst : ℚ
  buffered : Option (ℚ × Bytes)

variable {Body Context Error : Type}

namespace ThrottledBody

def new (inner : Body) (ip : IpAddr) (rate burst : ℚ) : ThrottledBody Body :=
  ⟨inner, ip, rate, burst, none⟩

variable [MessageBody Body Context Error]

def pollNext (body : ThrottledBody Body) (context : ThrottleContext Context) :
    Poll Error × ThrottledBody Body :=
  match body.buffered with
  | some (sleep, bytes) =>
      if !context.isOver sleep then (.pending, body)
      else (.ready (some (.ok bytes)), { body with buffered := none })
  | none =>
      match MessageBody.pollNext body.inner context.inner with
      | (.pending, inner) => (.pending, { body with inner })
      | (.ready none, inner) => (.ready none, { body with inner })
      | (.ready (some (.error error)), inner) => (.ready (some (.error error)), { body with inner })
      | (.ready (some (.ok bytes)), inner) =>
          match context.reserve body.ip bytes.length body.rate body.burst with
          | none => (.ready (some (.ok bytes)), { body with inner })
          | some wait =>
              -- the timer may be ready at its first poll
              if context.isOver wait then (.ready (some (.ok bytes)), { body with inner })
              else (.pending, { body with inner, buffered := some (wait, bytes) })

instance : MessageBody (ThrottledBody Body) (ThrottleContext Context) Error where
  size body := MessageBody.size body.inner
  pollNext := pollNext

end ThrottledBody

/-! ## What passes through -/

/-- A body that remembers how often it was polled and what it yielded. -/
structure Recorded (Body Error : Type) where
  body : Body
  polls : Nat
  yielded : List (BodyItem Error)

def Recorded.start (body : Body) : Recorded Body Error := ⟨body, 0, []⟩

instance [MessageBody Body Context Error] : MessageBody (Recorded Body Error) Context Error where
  size recorded := MessageBody.size recorded.body
  pollNext recorded context :=
    let (poll, body) := MessageBody.pollNext recorded.body context
    (poll, ⟨body, recorded.polls + 1, recorded.yielded ++ poll.items⟩)

def ThrottledBody.held (body : ThrottledBody Body) : List (BodyItem Error) :=
  (body.buffered.map fun chunk => some (.ok chunk.2)).toList

/-- A throttled body and the items it has yielded. -/
structure Delivery (Body Error : Type) where
  body : ThrottledBody (Recorded Body Error)
  delivered : List (BodyItem Error)

def Delivery.start (inner : Body) (ip : IpAddr) (rate burst : ℚ) : Delivery Body Error :=
  ⟨.new (.start inner) ip rate burst, []⟩

section Runs

variable [MessageBody Body Context Error]

/-- Polls may come at any time, and find any answer. -/
def pollSystem : System (Delivery Body Error) (ThrottleContext Context) where
  enabled _ _ := True
  next delivery context :=
    let (poll, body) := delivery.body.pollNext context
    ⟨body, delivery.delivered ++ poll.items⟩

/-- What a poll can do, given what its inner body would answer. -/
inductive PollStep (body : ThrottledBody Body) (polled : Poll Error × Body) :
    Poll Error × ThrottledBody Body → Prop
  | waits {chunk : ℚ × Bytes} (holds : body.buffered = some chunk) :
      PollStep body polled (.pending, body)
  | releases {chunk : ℚ × Bytes} (holds : body.buffered = some chunk) :
      PollStep body polled (.ready (some (.ok chunk.2)), { body with buffered := none })
  | passes (free : body.buffered = none) :
      PollStep body polled (polled.1, { body with inner := polled.2 })
  | keeps {wait : ℚ} {bytes : Bytes} (free : body.buffered = none)
      (yielded : polled.1 = .ready (some (.ok bytes))) :
      PollStep body polled
        (.pending, { body with inner := polled.2, buffered := some (wait, bytes) })

theorem pollNext_step (body : ThrottledBody Body) (context : ThrottleContext Context) :
    PollStep body (MessageBody.pollNext body.inner context.inner) (body.pollNext context) := by
  obtain ⟨inner, ip, rate, burst, buffered⟩ := body
  cases buffered with
  | some chunk =>
      unfold ThrottledBody.pollNext
      cases elapsed : context.isOver chunk.1 with
      | false => simpa [elapsed] using PollStep.waits rfl
      | true => simpa [elapsed] using PollStep.releases rfl
  | none =>
      have passes : PollStep ⟨inner, ip, rate, burst, none⟩
          (MessageBody.pollNext inner context.inner) _ := .passes rfl
      unfold ThrottledBody.pollNext
      rcases polled : MessageBody.pollNext inner context.inner with ⟨poll, after⟩
      simp only [polled] at passes ⊢
      cases poll with
      | pending => exact passes
      | ready item =>
          rcases item with _ | error | bytes
          · exact passes
          · exact passes
          · dsimp only
            cases context.reserve ip bytes.length rate burst with
            | none => exact passes
            | some wait =>
                dsimp only
                cases context.isOver wait with
                | false => exact .keeps rfl rfl
                | true => exact passes

/-- Every item of the inner body was delivered, once and in order, but for the
chunk that is held back. -/
def Delivery.Faithful (delivery : Delivery Body Error) : Prop :=
  delivery.body.inner.yielded = delivery.delivered ++ delivery.body.held

theorem Delivery.Faithful.next {delivery : Delivery Body Error} (faithful : delivery.Faithful)
    (context : ThrottleContext Context) : (pollSystem.next delivery context).Faithful := by
  have step := pollNext_step delivery.body context
  simp only [Faithful, pollSystem] at faithful ⊢
  generalize delivery.body.pollNext context = result at step ⊢
  cases step with
  | waits holds => simpa [Poll.items] using faithful
  | releases holds =>
      rw [faithful]
      simp [ThrottledBody.held, holds, Poll.items]
  | passes free =>
      have recorded : (MessageBody.pollNext delivery.body.inner context.inner).2.yielded =
          delivery.body.inner.yielded ++
            (MessageBody.pollNext delivery.body.inner context.inner).1.items := rfl
      rw [recorded, faithful]
      simp [ThrottledBody.held, free]
  | keeps free yielded =>
      have recorded : (MessageBody.pollNext delivery.body.inner context.inner).2.yielded =
          delivery.body.inner.yielded ++
            (MessageBody.pollNext delivery.body.inner context.inner).1.items := rfl
      rw [recorded, faithful, yielded]
      simp [ThrottledBody.held, free, Poll.items]

theorem pollNext_of_held {body : ThrottledBody Body} (holds : body.buffered ≠ none)
    (context : ThrottleContext Context) : (body.pollNext context).2.inner = body.inner := by
  have step := pollNext_step body context
  generalize body.pollNext context = result at step ⊢
  cases step with
  | waits => rfl
  | releases => rfl
  | passes free => exact absurd free holds
  | keeps free => exact absurd free holds

/-- The end is reported while nothing is held. -/
theorem held_of_end {body : ThrottledBody Body} {context : ThrottleContext Context}
    (ended : (body.pollNext context).1 = .ready none) :
    ((body.pollNext context).2.held : List (BodyItem Error)) = [] := by
  have step := pollNext_step body context
  generalize body.pollNext context = result at step ended ⊢
  cases step with
  | waits => cases ended
  | releases => cases ended
  | passes free => simp [ThrottledBody.held, free]
  | keeps => cases ended

/-- A throttled body yields the items of its inner body in their order, each once
and unaltered, but for at most one chunk that it holds back.  Its end comes
when nothing is held, and its inner body is not polled while something is. -/
theorem throttledBody_faithful {inner : Body} {ip : IpAddr} {rate burst : ℚ}
    {contexts : List (ThrottleContext Context)} {delivery : Delivery Body Error}
    (run : pollSystem.Run (.start inner ip rate burst) contexts delivery) :
    delivery.body.inner.yielded = delivery.delivered ++ delivery.body.held ∧
      (delivery.body.held : List (BodyItem Error)).length ≤ 1 ∧
      ∀ context,
        ((delivery.body.pollNext context).1 = .ready none →
          (pollSystem.next delivery context).delivered =
            (pollSystem.next delivery context).body.inner.yielded) ∧
        (delivery.body.buffered ≠ none →
          (pollSystem.next delivery context).body.inner = delivery.body.inner) := by
  have faithful : delivery.Faithful :=
    run.invariant rfl fun _ context faithful _ => faithful.next context
  refine ⟨faithful, ?_, fun context => ⟨fun ended => ?_, fun holds => pollNext_of_held holds context⟩⟩
  · cases buffered : delivery.body.buffered <;> simp [ThrottledBody.held, buffered]
  · have later := faithful.next context
    have empty := held_of_end ended
    unfold Delivery.Faithful at later
    rw [later]
    simp only [pollSystem, empty, List.append_nil]

theorem next_of_early {delivery : Delivery Body Error} {context : ThrottleContext Context}
    {sleep : ℚ} {bytes : Bytes} (holds : delivery.body.buffered = some (sleep, bytes))
    (early : context.isOver sleep = false) : pollSystem.next delivery context = delivery := by
  simp [pollSystem, ThrottledBody.pollNext, holds, early, Poll.items]

/-- A chunk that is held back comes at the first poll after its sleep is over, however
often the body is polled before. -/
theorem held_comes_when_over {delivery : Delivery Body Error} {sleep : ℚ} {bytes : Bytes}
    (holds : delivery.body.buffered = some (sleep, bytes))
    {waiting : List (ThrottleContext Context)}
    (early : ∀ context ∈ waiting, context.isOver sleep = false)
    {context : ThrottleContext Context} (ended : context.isOver sleep = true) :
    pollSystem.after delivery (context :: waiting) =
      ⟨{ delivery.body with buffered := none }, delivery.delivered ++ [some (.ok bytes)]⟩ := by
  have unchanged : pollSystem.after delivery waiting = delivery := by
    induction waiting with
    | nil => rfl
    | cons last earlier ih =>
        rw [List.forall_mem_cons] at early
        rw [System.after, ih early.2]
        exact next_of_early holds early.1
  rw [System.after, unchanged]
  simp [pollSystem, ThrottledBody.pollNext, holds, ended, Poll.items]

end Runs

/-- A body that answers from a script. -/
structure Script where
  polls : List (Poll Unit)

instance : MessageBody Script Unit Unit where
  size _ := .stream
  pollNext script _ :=
    match script.polls with
    | [] => (.pending, script)
    | poll :: rest => (poll, ⟨rest⟩)

/-- The second chunk is still held back at the third poll. -/
def heldDelivery : Delivery Script Unit :=
  pollSystem.after
    (.start ⟨[.ready (some (.ok [1])), .ready (some (.ok [2, 3])), .ready none]⟩
      (.v4 (.new 203 0 113 7)) 1 1)
    [⟨(), fun _ _ _ _ => none, fun _ => false⟩, ⟨(), fun _ _ _ _ => some 2, fun _ => false⟩,
      ⟨(), fun _ _ _ _ => none, fun _ => false⟩]

theorem throttledBody_faithful_held :
    [some (.ok [1]), some (.ok [2, 3])] = heldDelivery.delivered ++ heldDelivery.body.held ∧
      (heldDelivery.body.held : List (BodyItem Unit)).length ≤ 1 := by
  have run : pollSystem.Run (.start _ _ _ _) _ heldDelivery :=
    .of_admits ⟨⟨⟨trivial, trivial⟩, trivial⟩, trivial⟩
  obtain ⟨faithful, single, -⟩ := throttledBody_faithful run
  exact ⟨faithful, single⟩

end Filehost.RateLimit
