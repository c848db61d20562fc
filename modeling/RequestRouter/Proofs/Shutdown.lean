/-
  RequestRouter/Proofs/Shutdown.lean
  ==================================
  **What a receiver gets of signals that were sent before it looked.**

  A receiver is told apart from all others by how many signals it has yet to see.  Whatever anybody
  does, this number grows by one with each signal, since a receiver that is there keeps the signal from
  getting lost, and by nothing else (`Awaits.perform`).  So what the first look after a signal gives is
  told by how often the signal was sent: the signal if that was once, and else that some were missed,
  after which the next look gives the signal (`receive_after_triggers`).
-/
import RequestRouter.Shutdown

namespace RequestRouter.Shutdown

/-! ### Runs -/

/-- What tasks do with the signal. -/
inductive Action where
  | subscribe
  | trigger
  | receive (index : Nat)
  | drop (index : Nat)
deriving DecidableEq, Repr

/-- The signal after an action. -/
def perform (s : Shutdown) : Action → Shutdown
  | .subscribe => s.subscribe
  | .trigger => s.trigger
  | .receive index => (s.receive index).2
  | .drop index => s.drop index

/-- The signal after actions, in whatever order the tasks take them. -/
def run (s : Shutdown) (actions : List Action) : Shutdown := actions.foldl perform s

@[simp] theorem run_nil (s : Shutdown) : s.run [] = s := rfl

@[simp] theorem run_cons (s : Shutdown) (a : Action) (actions : List Action) :
    s.run (a :: actions) = (s.perform a).run actions := rfl

theorem run_append (s : Shutdown) (as bs : List Action) : s.run (as ++ bs) = (s.run as).run bs :=
  List.foldl_append

/-! ### Signals that a receiver has yet to see -/

/-- The receiver at an index is there, and so many signals were sent that it has not seen. -/
def Awaits (s : Shutdown) (index n : Nat) : Prop :=
  ∃ seen, s.receivers[index]? = some (some seen) ∧ seen + n = s.sent

/-- What a receiver gets that has yet to see so many signals. -/
def answer : Nat → Received
  | 0 => .empty
  | 1 => .signal
  | n + 2 => .lagged (n + 1)

/-- How many it has yet to see then: after what it missed, the newest. -/
def unseenAfter : Nat → Nat
  | 0 | 1 => 0
  | _ + 2 => 1

theorem receiveFrom_add (seen n : Nat) :
    (receiveFrom (seen + n) seen).1 = answer n ∧
      (receiveFrom (seen + n) seen).2 + unseenAfter n = seen + n := by
  unfold receiveFrom
  match n with
  | 0 => simp [answer, unseenAfter]
  | 1 =>
    have hsome : ¬ seen + 1 ≤ seen := by omega
    rw [if_neg hsome, if_pos rfl]
    exact ⟨rfl, rfl⟩
  | n + 2 =>
    have hsome : ¬ seen + (n + 2) ≤ seen := by omega
    have hmissed : seen + 1 ≠ seen + (n + 2) := by omega
    have hcount : seen + (n + 2) - 1 - seen = n + 1 := by omega
    rw [if_neg hsome, if_neg hmissed, hcount]
    exact ⟨rfl, rfl⟩

/-- A new receiver has seen all that was sent. -/
theorem awaits_subscribe_self (s : Shutdown) : Awaits s.subscribe s.receivers.length 0 :=
  ⟨s.sent, by simp [subscribe], rfl⟩

namespace Awaits

variable {s : Shutdown} {index n : Nat}

theorem subscribe (h : s.Awaits index n) : s.subscribe.Awaits index n := by
  obtain ⟨seen, hseen, hsent⟩ := h
  have hlt : index < s.receivers.length := (List.getElem?_eq_some_iff.mp hseen).1
  exact ⟨seen, by rw [Shutdown.subscribe, List.getElem?_append_left hlt, hseen], hsent⟩

/-- A signal reaches whoever is there. -/
theorem trigger (h : s.Awaits index n) : s.trigger.Awaits index (n + 1) := by
  obtain ⟨seen, hseen, hsent⟩ := h
  have hthere : s.receiverCount ≠ 0 := by
    rw [receiverCount, ← Nat.pos_iff_ne_zero, List.countP_pos_iff]
    exact ⟨some seen, List.mem_of_getElem? hseen, rfl⟩
  rw [Shutdown.trigger, if_neg hthere]
  exact ⟨seen, hseen, by simp only; omega⟩

theorem receive (h : s.Awaits index n) : (s.receive index).1 = some (answer n) ∧
    (s.receive index).2.Awaits index (unseenAfter n) := by
  obtain ⟨seen, hseen, hsent⟩ := h
  have hlt : index < s.receivers.length := (List.getElem?_eq_some_iff.mp hseen).1
  obtain ⟨hanswer, hleft⟩ := receiveFrom_add seen n
  rw [hsent] at hanswer hleft
  rw [Shutdown.receive, hseen]
  exact ⟨congrArg some hanswer, _, List.getElem?_set_self hlt, hleft⟩

/-- What another receiver does or does not do any longer changes nothing. -/
theorem set (h : s.Awaits index n) {other : Nat} (hother : other ≠ index) (seen : Option Nat) :
    Awaits { s with receivers := s.receivers.set other seen } index n := by
  obtain ⟨seen, hseen, hsent⟩ := h
  exact ⟨seen, by rwa [List.getElem?_set_ne hother], hsent⟩

theorem receive_other (h : s.Awaits index n) {other : Nat} (hother : other ≠ index) :
    (s.receive other).2.Awaits index n := by
  unfold Shutdown.receive
  split
  · exact h.set hother _
  · exact h

/-- **One action.**  Only a signal is one more to see. -/
theorem perform (h : s.Awaits index n) {a : Action} (hreceive : a ≠ .receive index)
    (hdrop : a ≠ .drop index) :
    (s.perform a).Awaits index (n + if a == .trigger then 1 else 0) := by
  cases a with
  | subscribe => exact h.subscribe
  | trigger => exact h.trigger
  | receive other => exact h.receive_other fun heq => hreceive (by rw [heq])
  | drop other => exact h.set (fun heq => hdrop (by rw [heq])) none

/-- **Any actions of others.**  Each signal among them is one more to see. -/
theorem run {actions : List Action} (h : s.Awaits index n)
    (hothers : ∀ a ∈ actions, a ≠ .receive index ∧ a ≠ .drop index) :
    (s.run actions).Awaits index (n + actions.count .trigger) := by
  induction actions generalizing s n with
  | nil => exact h
  | cons a actions ih =>
    obtain ⟨⟨hreceive, hdrop⟩, hrest⟩ := List.forall_mem_cons.mp hothers
    rw [run_cons, List.count_cons, Nat.add_comm (actions.count _), ← Nat.add_assoc]
    exact ih (h.perform hreceive hdrop) hrest

/-- While nobody sends the signal, a receiver that has seen all looks in vain, which changes
    nothing. -/
theorem run_quiet {actions : List Action} (h : s.Awaits index 0)
    (hquiet : ∀ a ∈ actions, a ≠ .trigger ∧ a ≠ .drop index) :
    (s.run actions).Awaits index 0 := by
  induction actions generalizing s with
  | nil => exact h
  | cons a actions ih =>
    obtain ⟨⟨htrigger, hdrop⟩, hrest⟩ := List.forall_mem_cons.mp hquiet
    refine ih ?_ hrest
    by_cases hreceive : a = .receive index
    · subst hreceive
      exact h.receive.2
    · have hnext := h.perform hreceive hdrop
      rwa [beq_false_of_ne htrigger] at hnext

end Awaits

/-! ### The first look after a signal -/

/-- **What a receiver gets when it first looks after a signal.**  It has looked in vain before or not
    at all, and others may have done anything.  It never looks in vain.  If the signal was sent once,
    it gets the signal; if it was sent again in between, it is told how often, and gets the signal when
    it looks again. -/
theorem receive_after_triggers (before quiet after later : List Action) (index : Nat)
    (hindex : (start.run before).receivers.length = index)
    (hquiet : ∀ a ∈ quiet, a ≠ .trigger ∧ a ≠ .drop index)
    (hafter : ∀ a ∈ after, a ≠ .receive index ∧ a ≠ .drop index)
    (hlater : ∀ a ∈ later, a ≠ .trigger ∧ a ≠ .receive index ∧ a ≠ .drop index) :
    let s := start.run (before ++ .subscribe :: (quiet ++ .trigger :: after))
    let again := after.count .trigger
    (s.receive index).1 = some (if again = 0 then .signal else .lagged again) ∧
      (((s.receive index).2.run later).receive index).1 =
        some (if again = 0 then .empty else .signal) := by
  intro s again
  have hnew : ((start.run before).subscribe.run quiet).Awaits index 0 :=
    (hindex ▸ awaits_subscribe_self (start.run before)).run_quiet hquiet
  have hawaits : s.Awaits index (1 + again) := by
    change (start.run (before ++ .subscribe :: (quiet ++ .trigger :: after))).Awaits index _
    rw [run_append, run_cons, run_append, run_cons]
    exact hnew.trigger.run hafter
  obtain ⟨hfirst, hleft⟩ := hawaits.receive
  have hlast := (hleft.run fun a ha => (hlater a ha).2).receive.1
  have hnone : later.count .trigger = 0 :=
    List.count_eq_zero.mpr fun hmem => (hlater _ hmem).1 rfl
  rw [hfirst, hlast, hnone]
  match again with
  | 0 => exact ⟨rfl, rfl⟩
  | n + 1 =>
    rw [Nat.add_comm 1 (n + 1), if_neg (Nat.succ_ne_zero n), if_neg (Nat.succ_ne_zero n)]
    exact ⟨rfl, rfl⟩

/-- A receiver that looks before the signal, while others come, look and go. -/
theorem receive_after_triggers_thrice :
    ((start.run [.subscribe, .trigger]).receivers.length = 1 ∧
        (∀ a ∈ [Action.receive 1, .receive 0], a ≠ .trigger ∧ a ≠ .drop 1) ∧
        (∀ a ∈ [Action.trigger, .drop 0, .trigger], a ≠ .receive 1 ∧ a ≠ .drop 1) ∧
        ∀ a ∈ [Action.subscribe], a ≠ .trigger ∧ a ≠ .receive 1 ∧ a ≠ .drop 1) ∧
      let s := start.run [.subscribe, .trigger, .subscribe, .receive 1, .receive 0, .trigger,
        .trigger, .drop 0, .trigger]
      (s.receive 1).1 = some (.lagged 2) ∧
        (((s.receive 1).2.run [.subscribe]).receive 1).1 = some .signal := by
  have hindex : (start.run [.subscribe, .trigger]).receivers.length = 1 := by decide
  have hquiet : ∀ a ∈ [Action.receive 1, .receive 0], a ≠ .trigger ∧ a ≠ .drop 1 := by decide
  have hafter : ∀ a ∈ [Action.trigger, .drop 0, .trigger], a ≠ .receive 1 ∧ a ≠ .drop 1 := by
    decide
  have hlater : ∀ a ∈ [Action.subscribe], a ≠ .trigger ∧ a ≠ .receive 1 ∧ a ≠ .drop 1 := by
    decide
  exact ⟨⟨hindex, hquiet, hafter, hlater⟩,
    receive_after_triggers _ _ _ _ 1 hindex hquiet hafter hlater⟩

/-- A signal that is sent twice before a receiver looks is not what it gets. -/
theorem receive_after_second_trigger :
    ¬ ∀ (before after : List Action) (index : Nat),
      (start.run before).receivers.length = index →
        (∀ a ∈ after, a ≠ .receive index ∧ a ≠ .drop index) → .trigger ∈ after →
          ((start.run (before ++ .subscribe :: after)).receive index).1 = some .signal := by
  intro hall
  exact absurd (hall [] [.trigger, .trigger] 0 rfl (by decide) (by decide)) (by decide)

end RequestRouter.Shutdown
