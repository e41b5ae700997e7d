import ZenohBridge.HttpParser

/-!
# The requests in an event stream

A connection carries one request after the other, and the events of a request may be
separated by events of the responses. `initiated` takes the responses out, `numbered` tags
every request event with the number of its request, and `RequestStage.run` follows the
stages of the messages over a whole stream.

The bytes of a request are those with its number. Later events never change the bytes of an
earlier request, and they change those of the last one only while its message is open.
-/

namespace ZenohBridge

variable {β : Type}

/-- Where the request events stand within a message. -/
inductive RequestStage where
  | between
  | body
  | trailers
  deriving DecidableEq, Repr

/-- A message is a head, any number of body parts, at most one trailer section and an
end. The events of the other side may stand anywhere. -/
def RequestStage.next : RequestStage → HttpEvent β → Option RequestStage
  | .between, .requestHead _ => some .body
  | .body, .body .initiator _ => some .body
  | .body, .trailers .initiator _ => some .trailers
  | .body, .endMessage .initiator => some .between
  | .trailers, .endMessage .initiator => some .between
  | stage, e => if e.side = some .initiator then none else some stage

/-- The request events, in order. -/
def initiated (events : List (HttpEvent β)) : List (HttpEvent β) :=
  events.filter fun e => e.side = some .initiator

/-- The stage after a stream of events, if its request events are messages. -/
def RequestStage.run : RequestStage → List (HttpEvent β) → Option RequestStage
  | stage, [] => some stage
  | stage, e :: events => (stage.next e).bind fun stage' => run stage' events

/-- The request events are a sequence of messages, of which the last may be open. -/
def Framed (events : List (HttpEvent β)) : Prop := (RequestStage.between.run events).isSome

instance (events : List (HttpEvent β)) : Decidable (Framed events) :=
  inferInstanceAs (Decidable (_ = true))

/-- The request bytes of a stream, each with the number of its request; the first head has
the number `n + 1`. -/
def numbered : Nat → List (HttpEvent β) → List (Nat × List β)
  | _, [] => []
  | n, .requestHead head :: events => (n + 1, head.raw) :: numbered (n + 1) events
  | n, e :: events => (n, e.rawOn .initiator) :: numbered n events

/-- The bytes with one number, in order. -/
def bytesFor (k : Nat) (entries : List (Nat × List β)) : List β :=
  entries.flatMap fun entry => if entry.1 = k then entry.2 else []

@[simp] theorem bytesFor_nil (k : Nat) : bytesFor k ([] : List (Nat × List β)) = [] := rfl

@[simp] theorem bytesFor_append (k : Nat) (xs ys : List (Nat × List β)) :
    bytesFor k (xs ++ ys) = bytesFor k xs ++ bytesFor k ys :=
  List.flatMap_append

theorem bytesFor_cons (k : Nat) (entry : Nat × List β) (entries : List (Nat × List β)) :
    bytesFor k (entry :: entries) =
      (if entry.1 = k then entry.2 else []) ++ bytesFor k entries :=
  rfl

theorem bytesFor_cons_self (k : Nat) (bytes : List β) (entries : List (Nat × List β)) :
    bytesFor k ((k, bytes) :: entries) = bytes ++ bytesFor k entries := by
  rw [bytesFor_cons, if_pos rfl]

theorem bytesFor_cons_ne {k n : Nat} (h : n ≠ k) (bytes : List β)
    (entries : List (Nat × List β)) :
    bytesFor k ((n, bytes) :: entries) = bytesFor k entries := by
  rw [bytesFor_cons, if_neg h, List.nil_append]

@[simp] theorem initiated_append (xs ys : List (HttpEvent β)) :
    initiated (xs ++ ys) = initiated xs ++ initiated ys :=
  List.filter_append ..

theorem initiated_cons {e : HttpEvent β} (h : e.side = some .initiator)
    (events : List (HttpEvent β)) : initiated (e :: events) = e :: initiated events :=
  List.filter_cons_of_pos (decide_eq_true h)

theorem initiated_cons_ne {e : HttpEvent β} (h : e.side ≠ some .initiator)
    (events : List (HttpEvent β)) : initiated (e :: events) = initiated events :=
  List.filter_cons_of_neg (by simpa using h)

/-- An event that is no request head leaves the number of the request. -/
theorem numbered_cons {e : HttpEvent β} (h : ∀ head, e ≠ .requestHead head) (n : Nat)
    (events : List (HttpEvent β)) :
    numbered n (e :: events) = (n, e.rawOn .initiator) :: numbered n events := by
  cases e with
  | requestHead head => exact absurd rfl (h head)
  | _ => rfl

theorem requestHeads_cons {e : HttpEvent β} (h : ∀ head, e ≠ .requestHead head)
    (events : List (HttpEvent β)) : requestHeads (e :: events) = requestHeads events := by
  cases e with
  | requestHead head => exact absurd rfl (h head)
  | _ => rfl

theorem requestHeads_snoc {e : HttpEvent β} (h : ∀ head, e ≠ .requestHead head)
    (events : List (HttpEvent β)) : requestHeads (events ++ [e]) = requestHeads events := by
  rw [requestHeads_append, requestHeads_cons h, requestHeads_nil, List.append_nil]

theorem ne_requestHead {e : HttpEvent β} (h : e.side ≠ some .initiator) (head : RequestHead β) :
    e ≠ .requestHead head := by
  rintro rfl
  exact h rfl

/-- The heads of a stream are among its request events. -/
theorem requestHeads_initiated (events : List (HttpEvent β)) :
    requestHeads (initiated events) = requestHeads events := by
  induction events with
  | nil => rfl
  | cons e events ih =>
      by_cases hside : e.side = some .initiator
      · rw [initiated_cons hside]
        cases e with
        | requestHead head => exact congrArg (head :: ·) ih
        | _ => exact ih
      · rw [initiated_cons_ne hside, ih, requestHeads_cons (ne_requestHead hside)]

theorem numbered_append (n : Nat) (xs ys : List (HttpEvent β)) :
    numbered n (xs ++ ys) = numbered n xs ++ numbered (n + (requestHeads xs).length) ys := by
  induction xs generalizing n with
  | nil => rfl
  | cons e xs ih =>
      cases e with
      | requestHead head =>
          have hlength : n + (requestHeads (.requestHead head :: xs)).length =
              n + 1 + (requestHeads xs).length :=
            calc n + (requestHeads (.requestHead head :: xs)).length
              _ = n + ((requestHeads xs).length + 1) := rfl
              _ = n + 1 + (requestHeads xs).length := by omega
          rw [hlength]
          exact congrArg ((n + 1, head.raw) :: ·) (ih (n + 1))
      | _ => exact congrArg (_ :: ·) (ih n)

/-- The responses have no part in the bytes of a request. -/
theorem bytesFor_initiated (k n : Nat) (events : List (HttpEvent β)) :
    bytesFor k (numbered n (initiated events)) = bytesFor k (numbered n events) := by
  induction events generalizing n with
  | nil => rfl
  | cons e events ih =>
      by_cases hside : e.side = some .initiator
      · rw [initiated_cons hside]
        cases e with
        | requestHead head => exact congrArg (_ ++ ·) (ih (n + 1))
        | _ => exact congrArg (_ ++ ·) (ih n)
      · rw [initiated_cons_ne hside, ih, numbered_cons (ne_requestHead hside),
          rawOn_eq_nil hside, bytesFor_cons, ite_self, List.nil_append]

/-- Later requests have larger numbers. -/
theorem bytesFor_numbered_of_lt {k n : Nat} (h : k < n) (events : List (HttpEvent β)) :
    bytesFor k (numbered n events) = [] := by
  induction events generalizing n with
  | nil => rfl
  | cons e events ih =>
      cases e with
      | requestHead head =>
          rw [numbered, bytesFor_cons_ne (by omega)]
          exact ih (by omega)
      | _ => exact (bytesFor_cons_ne (Nat.ne_of_gt h) _ _).trans (ih h)

/-- There are no more requests than heads. -/
theorem bytesFor_numbered_of_gt {k n : Nat} {events : List (HttpEvent β)}
    (h : n + (requestHeads events).length < k) : bytesFor k (numbered n events) = [] := by
  induction events generalizing n with
  | nil => rfl
  | cons e events ih =>
      cases e with
      | requestHead head =>
          have hlength : n + ((requestHeads events).length + 1) < k := h
          rw [numbered, bytesFor_cons_ne (by omega)]
          exact ih (by omega)
      | _ =>
          have hlength : n + (requestHeads events).length < k := h
          have hne : n ≠ k := by omega
          exact (bytesFor_cons_ne hne _ _).trans (ih hlength)

namespace RequestStage

variable {stage stage' : RequestStage} {e : HttpEvent β} {events : List (HttpEvent β)}

/-- The events of the responses leave the stage. -/
theorem next_of_side_ne (h : e.side ≠ some .initiator) : stage.next e = some stage := by
  cases e with
  | requestHead head => exact absurd rfl h
  | responseHead head => cases stage <;> rfl
  | body dir raw | trailers dir raw | endMessage dir =>
      cases dir with
      | initiator => exact absurd rfl h
      | responder => cases stage <;> rfl
  | switchProtocols => cases stage <;> rfl

/-- A head stands between two messages. -/
theorem next_requestHead {head : RequestHead β}
    (h : stage.next (.requestHead head) = some stage') : stage = .between ∧ stage' = .body := by
  cases stage with
  | between => exact ⟨rfl, (Option.some.inj h).symm⟩
  | body | trailers => contradiction

/-- Between two messages there is no request event but a head. -/
theorem side_of_next_between (h : RequestStage.between.next e = some stage')
    (hhead : ∀ head, e ≠ .requestHead head) : e.side ≠ some .initiator := by
  intro hside
  cases e with
  | requestHead head => exact hhead head rfl
  | responseHead head => cases hside
  | body dir raw | trailers dir raw | endMessage dir =>
      obtain rfl := Option.some.inj hside
      contradiction
  | switchProtocols => contradiction

/-- Body and trailer bytes leave the message open. -/
theorem next_ne_between {raw : List β}
    (he : e = .body .initiator raw ∨ e = .trailers .initiator raw)
    (h : stage.next e = some stage') : stage' ≠ .between := by
  rintro rfl
  rcases he with rfl | rfl <;> cases stage <;> cases h

/-- The end of a message closes it. -/
theorem next_endMessage (h : stage.next (.endMessage .initiator : HttpEvent β) = some stage') :
    stage' = .between := by
  cases stage with
  | between => contradiction
  | body | trailers => exact (Option.some.inj h).symm

theorem run_cons (h : stage.run (e :: events) = some stage') :
    ∃ mid, stage.next e = some mid ∧ mid.run events = some stage' :=
  Option.bind_eq_some_iff.mp h

theorem run_append (xs ys : List (HttpEvent β)) :
    stage.run (xs ++ ys) = (stage.run xs).bind fun mid => mid.run ys := by
  induction xs generalizing stage with
  | nil => rfl
  | cons e xs ih =>
      rw [List.cons_append, run, run]
      cases hnext : stage.next e with
      | none => rfl
      | some mid => exact ih

theorem run_initiated (events : List (HttpEvent β)) :
    stage.run (initiated events) = stage.run events := by
  induction events generalizing stage with
  | nil => rfl
  | cons e events ih =>
      by_cases hside : e.side = some .initiator
      · rw [initiated_cons hside, run, run]
        congr 1
        ext1 mid
        exact ih
      · rw [initiated_cons_ne hside, ih, run, next_of_side_ne hside]
        rfl

/-- Between two messages the next request bytes belong to the next request. -/
theorem bytesFor_of_between {n : Nat} (h : RequestStage.between.run events = some stage') :
    bytesFor n (numbered n events) = [] := by
  induction events with
  | nil => rfl
  | cons e events ih =>
      obtain ⟨mid, hnext, hrun⟩ := run_cons h
      by_cases hhead : ∃ head, e = .requestHead head
      · obtain ⟨head, rfl⟩ := hhead
        rw [numbered, bytesFor_cons_ne (by omega)]
        exact bytesFor_numbered_of_lt (Nat.lt_succ_self n) events
      · have hstray := not_exists.mp hhead
        have hside := side_of_next_between hnext hstray
        rw [next_of_side_ne hside] at hnext
        obtain rfl := Option.some.inj hnext
        rw [numbered_cons hstray, rawOn_eq_nil hside, bytesFor_cons, ite_self, List.nil_append]
        exact ih hrun

end RequestStage

theorem Framed.before {xs ys : List (HttpEvent β)} (h : Framed ys) (hp : xs <+: ys) :
    Framed xs := by
  obtain ⟨zs, rfl⟩ := hp
  rw [Framed, RequestStage.run_append] at h
  exact Option.isSome_of_isSome_bind h

/-- What follows a framed part of a framed stream goes on from its stage. -/
theorem Framed.run_of_append {xs ys events : List (HttpEvent β)} {stage : RequestStage}
    (h : Framed events) (hsplit : initiated events = xs ++ ys)
    (hxs : RequestStage.between.run xs = some stage) : ∃ stage', stage.run ys = some stage' := by
  rw [Framed, ← RequestStage.run_initiated, hsplit, RequestStage.run_append, hxs] at h
  exact Option.isSome_iff_exists.mp h

end ZenohBridge
