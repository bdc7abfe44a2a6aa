/-
Who hears of which faults.

Handlers change the list that they are called from, so what a report does is told event by event: a
handler is subscribed, a report begins, a subscription is called.  Subscriptions are numbered as they
come, which tells apart two of one handler.  The channel can be read off its history, and in the
history each report calls the subscriptions made before it began, in order and once each; so each
subscription hears the faults whose reports begin after it, and no others.
-/
import Mathlib.Data.List.Basic
import TypedRecords.FaultChannel

namespace TypedRecords.FaultChannel

universe u v

variable {Handler : Type u} {Fault : Type v}

/-! ### Runs and their histories -/

/-- What is done to a channel from outside its handlers. -/
inductive Step (Handler : Type u) (Fault : Type v) where
  | subscribe (handler : Handler)
  | report (fault : Fault)

/-- The channel after a step. -/
def step (react : Reaction Handler Fault) (channel : FaultChannel Handler Fault) :
    Step Handler Fault → FaultChannel Handler Fault
  | .subscribe handler => channel.subscribe handler
  | .report fault => channel.report react fault

/-- The channel after steps, one after the other. -/
def run (react : Reaction Handler Fault) (channel : FaultChannel Handler Fault)
    (steps : List (Step Handler Fault)) : FaultChannel Handler Fault :=
  steps.foldl (step react) channel

/-- What happens on a channel, in a step or inside a handler. -/
inductive Happening (Handler : Type u) (Fault : Type v) where
  | subscribed (handler : Handler)
  /-- A report begins. -/
  | begun (fault : Fault)
  /-- The handler of a subscription is called; subscriptions are numbered from zero. -/
  | called (subscription : Nat) (fault : Fault)
deriving DecidableEq

/-- What happens while handlers are called, of which the first is that of subscription `number`. -/
def callHistory (react : Reaction Handler Fault) (fault : Fault) :
    (number : Nat) → FaultChannel Handler Fault → List Handler → List (Happening Handler Fault)
  | _, _, [] => []
  | number, channel, handler :: rest =>
    .called number fault ::
      (react (channel.delivered ++ [(handler, fault)]) handler fault).map .subscribed ++
      callHistory react fault (number + 1) (channel.deliver react fault handler) rest

/-- What happens in a step. -/
def stepHistory (react : Reaction Handler Fault) (channel : FaultChannel Handler Fault) :
    Step Handler Fault → List (Happening Handler Fault)
  | .subscribe handler => [.subscribed handler]
  | .report fault =>
    .begun fault :: callHistory react fault 0
      { channel with reported := channel.reported ++ [fault] } channel.handlers

/-- What happens in steps, the earliest first. -/
def history (react : Reaction Handler Fault) :
    FaultChannel Handler Fault → List (Step Handler Fault) → List (Happening Handler Fault)
  | _, [] => []
  | channel, s :: rest =>
    stepHistory react channel s ++ history react (channel.step react s) rest

/-! ### Reading a history -/

namespace Happening

/-- The handler of a subscription. -/
def handler? : Happening Handler Fault → Option Handler
  | subscribed handler => some handler
  | _ => none

/-- The fault of a report. -/
def fault? : Happening Handler Fault → Option Fault
  | begun fault => some fault
  | _ => none

/-- The subscription and the fault of a call. -/
def call? : Happening Handler Fault → Option (Nat × Fault)
  | called subscription fault => some (subscription, fault)
  | _ => none

end Happening

/-- The handlers subscribed in a history, in order; a subscription's number is its place here. -/
def subscribers (past : List (Happening Handler Fault)) : List Handler :=
  past.filterMap Happening.handler?

/-- The faults whose reports begin in a history. -/
def faults (past : List (Happening Handler Fault)) : List Fault :=
  past.filterMap Happening.fault?

/-- The calls made in a history. -/
def calls (past : List (Happening Handler Fault)) : List (Nat × Fault) :=
  past.filterMap Happening.call?

/-- The faults that a subscription is called with. -/
def heard (number : Nat) (past : List (Happening Handler Fault)) : List Fault :=
  ((calls past).filter (·.1 = number)).map (·.2)

/-- The part of a history before the next report begins. -/
def round (past : List (Happening Handler Fault)) : List (Happening Handler Fault) :=
  past.takeWhile fun h => h.fault?.isNone

section

variable (past more : List (Happening Handler Fault))

@[simp] theorem subscribers_append :
    subscribers (past ++ more) = subscribers past ++ subscribers more :=
  List.filterMap_append

@[simp] theorem faults_append : faults (past ++ more) = faults past ++ faults more :=
  List.filterMap_append

@[simp] theorem calls_append : calls (past ++ more) = calls past ++ calls more :=
  List.filterMap_append

@[simp] theorem heard_append (number : Nat) :
    heard number (past ++ more) = heard number past ++ heard number more := by
  simp [heard]

/-- Where no report begins, a round goes on. -/
theorem round_append_of_no_faults {past : List (Happening Handler Fault)} (h : faults past = []) :
    round (past ++ more) = past ++ round more := by
  refine List.takeWhile_append_of_pos fun happening hmem => ?_
  rw [List.filterMap_eq_nil_iff.mp h happening hmem]
  rfl

end

/-! ### One step -/

section

variable (react : Reaction Handler Fault) (fault : Fault)

theorem faults_callHistory (handlers : List Handler) :
    ∀ (number : Nat) (channel : FaultChannel Handler Fault),
      faults (callHistory react fault number channel handlers) = [] := by
  induction handlers with
  | nil => exact fun _ _ => rfl
  | cons handler rest ih =>
      intro number channel
      have hjoined (joined : List Handler) :
          faults (joined.map (@Happening.subscribed Handler Fault)) = [] :=
        List.filterMap_eq_nil_iff.mpr (by simp [Happening.fault?])
      rw [callHistory, faults_append, ih, List.append_nil]
      exact hjoined _

/-- The handlers are called in order and once each. -/
theorem calls_callHistory (handlers : List Handler) :
    ∀ (number : Nat) (channel : FaultChannel Handler Fault),
      calls (callHistory react fault number channel handlers)
        = (List.range' number handlers.length).map (·, fault) := by
  induction handlers with
  | nil => exact fun _ _ => rfl
  | cons handler rest ih =>
      intro number channel
      have hjoined (joined : List Handler) :
          calls (joined.map (@Happening.subscribed Handler Fault)) = [] :=
        List.filterMap_eq_nil_iff.mpr (by simp [Happening.call?])
      rw [callHistory, calls_append, ih, List.length_cons, List.range'_succ, List.map_cons]
      show (number, fault) :: calls _ ++ _ = _
      rw [hjoined]
      rfl

/-- Calling handlers adds the deliveries, and the handlers that were subscribed meanwhile. -/
theorem foldl_deliver (handlers : List Handler) :
    ∀ (number : Nat) (channel : FaultChannel Handler Fault),
      handlers.foldl (deliver react fault) channel
        = { handlers := channel.handlers
              ++ subscribers (callHistory react fault number channel handlers)
            reported := channel.reported
            delivered := channel.delivered ++ handlers.map (·, fault) } := by
  induction handlers with
  | nil => simp [callHistory, subscribers]
  | cons handler rest ih =>
      intro number channel
      have hjoined (joined : List Handler) :
          subscribers (joined.map (@Happening.subscribed Handler Fault)) = joined := by
        simp [subscribers, List.filterMap_map, Function.comp_def, Happening.handler?]
      rw [List.foldl_cons, ih (number + 1), callHistory, subscribers_append]
      show _ = FaultChannel.mk (channel.handlers ++ (subscribers (List.map _ _) ++ _)) _ _
      rw [hjoined]
      simp [deliver]

end

section

variable (react : Reaction Handler Fault) (channel : FaultChannel Handler Fault)

/-- A step's calls: a report calls all subscriptions made before it. -/
theorem calls_stepHistory (s : Step Handler Fault) :
    calls (stepHistory react channel s)
      = (faults (stepHistory react channel s)).flatMap fun fault =>
          (List.range channel.handlers.length).map (·, fault) := by
  cases s with
  | subscribe handler => rfl
  | report fault =>
      show calls (callHistory ..) = (fault :: faults (callHistory ..)).flatMap _
      rw [calls_callHistory, faults_callHistory, List.range_eq_range']
      simp

/-- **What a step adds to the channel** is what happened in it. -/
theorem step_eq (s : Step Handler Fault) :
    channel.step react s
      = { handlers := channel.handlers ++ subscribers (stepHistory react channel s)
          reported := channel.reported ++ faults (stepHistory react channel s)
          delivered := channel.delivered ++
            (faults (stepHistory react channel s)).flatMap fun fault =>
              channel.handlers.map (·, fault) } := by
  cases s with
  | subscribe handler =>
      show FaultChannel.mk _ _ _ = FaultChannel.mk _ (_ ++ []) (_ ++ [])
      rw [List.append_nil, List.append_nil]
      rfl
  | report fault =>
      show channel.handlers.foldl _ _ = FaultChannel.mk (_ ++ subscribers (callHistory ..))
        (_ ++ (fault :: faults (callHistory ..))) (_ ++ (fault :: faults (callHistory ..)).flatMap _)
      rw [foldl_deliver react fault channel.handlers 0, faults_callHistory]
      simp

/-- A step's reports call a subscription made before it once each, and no other. -/
theorem heard_stepHistory (s : Step Handler Fault) (number : Nat) :
    heard number (stepHistory react channel s)
      = if number < channel.handlers.length then faults (stepHistory react channel s) else [] := by
  have hcalled (fault : Fault) :
      (((List.range channel.handlers.length).map (·, fault)).filter (·.1 = number)).map (·.2)
        = if number < channel.handlers.length then [fault] else [] := by
    rw [List.filter_map, List.map_map]
    show ((List.range _).filter fun n => decide (n = number)).map _ = _
    rw [List.filter_eq, List.nodup_range.count]
    simp only [List.mem_range]
    split <;> rfl
  rw [heard, calls_stepHistory, List.filter_flatMap, List.map_flatMap]
  simp only [hcalled]
  split <;> simp

/-- No report begins in a step after a subscription. -/
theorem faults_of_stepHistory_eq {s : Step Handler Fault} {handler : Handler}
    {before after : List (Happening Handler Fault)}
    (h : stepHistory react channel s = before ++ .subscribed handler :: after) :
    faults after = [] := by
  cases s with
  | subscribe other =>
      obtain ⟨-, hafter⟩ | ⟨mid, -, hmid⟩ := List.cons_eq_append_iff.mp h
      · cases hafter
        rfl
      · simp at hmid
  | report fault =>
      obtain ⟨-, hafter⟩ | ⟨mid, -, hmid⟩ := List.cons_eq_append_iff.mp h
      · cases hafter
      · have hnone := faults_callHistory react fault channel.handlers 0
          { channel with reported := channel.reported ++ [fault] }
        rw [hmid, faults_append] at hnone
        exact (List.append_eq_nil_iff.mp hnone).2

/-- A step in which a report begins is that report. -/
theorem stepHistory_eq_begun {s : Step Handler Fault} {fault : Fault}
    {before after : List (Happening Handler Fault)}
    (h : stepHistory react channel s = before ++ .begun fault :: after) :
    before = [] ∧ after = callHistory react fault 0
      { channel with reported := channel.reported ++ [fault] } channel.handlers := by
  cases s with
  | subscribe other =>
      obtain ⟨-, hafter⟩ | ⟨mid, -, hmid⟩ := List.cons_eq_append_iff.mp h
      · cases hafter
      · simp at hmid
  | report other =>
      obtain ⟨hbefore, hafter⟩ | ⟨mid, -, hmid⟩ := List.cons_eq_append_iff.mp h
      · cases hafter
        exact ⟨hbefore, rfl⟩
      · have hnone := faults_callHistory react other channel.handlers 0
          { channel with reported := channel.reported ++ [other] }
        rw [hmid, faults_append] at hnone
        cases (List.append_eq_nil_iff.mp hnone).2

end

/-! ### A whole run -/

/-- A happening in two histories, one after the other, is in the first or in the second. -/
theorem split_of_append_eq {first rest before after : List (Happening Handler Fault)}
    {happening : Happening Handler Fault} (h : first ++ rest = before ++ happening :: after) :
    (∃ mid, first = before ++ happening :: mid ∧ after = mid ++ rest) ∨
      ∃ mid, before = first ++ mid ∧ rest = mid ++ happening :: after := by
  obtain ⟨mid, hbefore, hrest⟩ | ⟨mid, hfirst, hafter⟩ := List.append_eq_append_iff.mp h
  · exact .inr ⟨mid, hbefore, hrest⟩
  · cases mid with
    | nil => exact .inr ⟨[], by simpa using hfirst.symm, hafter.symm⟩
    | cons x mid =>
        obtain ⟨rfl, rfl⟩ := List.cons.inj hafter
        exact .inl ⟨mid, hfirst, rfl⟩

section

variable (react : Reaction Handler Fault)

/-- A subscription made before a history hears all faults of it. -/
theorem heard_history_of_lt (steps : List (Step Handler Fault)) :
    ∀ {channel : FaultChannel Handler Fault} {number : Nat}, number < channel.handlers.length →
      heard number (history react channel steps) = faults (history react channel steps) := by
  induction steps with
  | nil => exact fun _ => rfl
  | cons s rest ih =>
      intro channel number h
      have hnext : number < (channel.step react s).handlers.length := by
        rw [step_eq, List.length_append]
        omega
      rw [history, heard_append, faults_append, ih hnext, heard_stepHistory, if_pos h]

/-- A subscription hears the faults whose reports begin after it. -/
theorem heard_of_subscribed (steps : List (Step Handler Fault)) :
    ∀ {channel : FaultChannel Handler Fault} {before after : List (Happening Handler Fault)}
      {handler : Handler}, history react channel steps = before ++ .subscribed handler :: after →
      heard (channel.handlers.length + (subscribers before).length) (history react channel steps)
        = faults after := by
  induction steps with
  | nil =>
      intro channel before after handler h
      simp [history] at h
  | cons s rest ih =>
      intro channel before after handler h
      have hlength : (channel.step react s).handlers.length
          = channel.handlers.length + (subscribers (stepHistory react channel s)).length := by
        rw [step_eq, List.length_append]
      rw [history, heard_append, heard_stepHistory, if_neg (by omega), List.nil_append]
      obtain ⟨mid, hstep, rfl⟩ | ⟨mid, rfl, hrest⟩ := split_of_append_eq h
      · -- the handler came in this step, so it hears all of the steps after it
        rw [heard_history_of_lt, faults_append, faults_of_stepHistory_eq react channel hstep,
          List.nil_append]
        rw [hlength, hstep, subscribers_append, List.length_append]
        show _ < _ + (_ + (handler :: subscribers mid).length)
        rw [List.length_cons]
        omega
      · rw [subscribers_append, List.length_append, ← Nat.add_assoc, ← hlength]
        exact ih hrest

/-- No handler is called until the next report begins. -/
theorem calls_round_history (steps : List (Step Handler Fault)) :
    ∀ channel : FaultChannel Handler Fault, calls (round (history react channel steps)) = [] := by
  induction steps with
  | nil => exact fun _ => rfl
  | cons s rest ih =>
      intro channel
      cases s with
      | subscribe handler => exact ih (channel.subscribe handler)
      | report fault => rfl

/-- A report calls each subscription made before it began. -/
theorem calls_of_begun (steps : List (Step Handler Fault)) :
    ∀ {channel : FaultChannel Handler Fault} {before after : List (Happening Handler Fault)}
      {fault : Fault}, history react channel steps = before ++ .begun fault :: after →
      calls (round after)
        = (List.range (channel.handlers.length + (subscribers before).length)).map (·, fault) := by
  induction steps with
  | nil =>
      intro channel before after fault h
      simp [history] at h
  | cons s rest ih =>
      intro channel before after fault h
      obtain ⟨mid, hstep, rfl⟩ | ⟨mid, rfl, hrest⟩ := split_of_append_eq h
      · obtain ⟨rfl, rfl⟩ := stepHistory_eq_begun react channel hstep
        rw [round_append_of_no_faults _ (faults_callHistory ..), calls_append,
          calls_round_history, calls_callHistory, List.append_nil, List.range_eq_range']
        rfl
      · have hlength : (channel.step react s).handlers.length
            = channel.handlers.length + (subscribers (stepHistory react channel s)).length := by
          rw [step_eq, List.length_append]
        rw [subscribers_append, List.length_append, ← Nat.add_assoc, ← hlength]
        exact ih hrest

/-! ### What the channel has of its history -/

/-- A channel that a history led to: its handlers and faults are those of the history, and its
deliveries are the history's calls, each to the handler of the subscription called. -/
structure Tells (past : List (Happening Handler Fault)) (channel : FaultChannel Handler Fault) :
    Prop where
  handlers : subscribers past = channel.handlers
  reported : faults past = channel.reported
  delivered : (calls past).map (fun call => (channel.handlers[call.1]?, call.2))
    = channel.delivered.map fun delivery => (some delivery.1, delivery.2)

/-- **What a step adds to the history it adds to the channel.** -/
theorem Tells.step {past : List (Happening Handler Fault)} {channel : FaultChannel Handler Fault}
    (h : Tells past channel) (s : Step Handler Fault) :
    Tells (past ++ stepHistory react channel s) (channel.step react s) := by
  rw [step_eq]
  refine ⟨by rw [subscribers_append, h.handlers], by rw [faults_append, h.reported], ?_⟩
  dsimp only
  generalize subscribers (stepHistory react channel s) = joined
  -- a number that was called belongs to a handler that was there already
  have hold : ∀ call ∈ calls past, (channel.handlers ++ joined)[call.1]?
      = channel.handlers[call.1]? := by
    intro call hcall
    have hmem : (channel.handlers[call.1]?, call.2) ∈ (calls past).map
        fun call => (channel.handlers[call.1]?, call.2) := List.mem_map_of_mem hcall
    rw [h.delivered] at hmem
    obtain ⟨delivery, -, hdelivery⟩ := List.mem_map.mp hmem
    have hhandler := (Prod.mk.inj hdelivery).1.symm
    exact List.getElem?_append_left (List.getElem?_eq_some_iff.mp hhandler).1
  have hnew (fault : Fault) :
      ((List.range channel.handlers.length).map (·, fault)).map
          (fun call => ((channel.handlers ++ joined)[call.1]?, call.2))
        = (channel.handlers.map (·, fault)).map fun delivery => (some delivery.1, delivery.2) := by
    refine List.ext_getElem (by simp) fun i hi _ => ?_
    have hlt : i < channel.handlers.length := by simpa using hi
    simp [List.getElem?_append_left hlt, List.getElem?_eq_getElem hlt]
  rw [calls_append, List.map_append, List.map_append, ← h.delivered, calls_stepHistory,
    List.map_flatMap, List.map_flatMap]
  simp only [hnew]
  congr 1
  exact List.map_congr_left fun call hcall => by rw [hold call hcall]

/-- The history of a run leads to the channel after it. -/
theorem Tells.run {past : List (Happening Handler Fault)} {channel : FaultChannel Handler Fault}
    (h : Tells past channel) (steps : List (Step Handler Fault)) :
    Tells (past ++ history react channel steps) (channel.run react steps) := by
  induction steps generalizing past channel with
  | nil =>
      rw [history, List.append_nil]
      exact h
  | cons s rest ih =>
      rw [history, ← List.append_assoc]
      exact ih (h.step react s)

/--
**Each subscription hears the faults whose reports begin after it, and no others.**

Whatever handlers subscribe when they are called: until the next report begins, a report calls the
subscriptions made before it began, in order and once each.  So one made while a fault is delivered
hears nothing of that fault and each later one once.
-/
theorem each_hears_what_begins_after (steps : List (Step Handler Fault)) :
    Tells (history react {} steps) (run react {} steps) ∧
      (∀ before fault after, history react {} steps = before ++ .begun fault :: after →
        calls (round after) = (List.range (subscribers before).length).map (·, fault)) ∧
      ∀ before handler after, history react {} steps = before ++ .subscribed handler :: after →
        heard (subscribers before).length (history react {} steps) = faults after := by
  refine ⟨?_, ?_, ?_⟩
  · exact (Tells.mk rfl rfl rfl : Tells [] ({} : FaultChannel Handler Fault)).run react steps
  · intro before fault after h
    rw [calls_of_begun react steps h]
    simp
  · intro before handler after h
    have hheard := heard_of_subscribed react steps h
    simpa using hheard

-- One handler subscribes another whenever it is called.
example : (run (fun _ handler _ => if handler = 0 then [1] else []) {}
    [.subscribe 0, .report "a", .report "b"] : FaultChannel Nat String).delivered
      = [(0, "a"), (0, "b"), (1, "b")] := by decide

end

end TypedRecords.FaultChannel
