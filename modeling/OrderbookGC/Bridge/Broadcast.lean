/-
How the bridge passes the server's messages on to the browsers: `on_server_message` makes a task of every text, and
`_broadcast` sends it to all WebSockets that are connected when the task runs. The tasks of one text wait for each other
only in `gather`; so texts are under way side by side, while browsers come, go and fail. Still, what a browser gets are
all texts from its arrival on, each once and in order, up to a point (`run_broadcast`).

The event loop runs the oldest ready task up to its next wait. `send_text` writes before it can wait, and fails on a
socket that is closed; it waits for a full buffer, and fails if the socket is closed meanwhile. The order of a set is that
of its insertions here. `forwarded` and `sent` are specification only.
-/
import Mathlib.Data.List.Induction
import Mathlib.Data.List.Infix
import Mathlib.Data.List.Nodup
import Mathlib.Tactic.Common

namespace OrderbookGC.Broadcast

variable {ω β : Type} [DecidableEq ω]

inductive Task (ω β : Type)
  /-- `_broadcast(text)` starts. -/
  | broadcast (text : β)
  /-- `_safe_send(ws, text)` starts, for a `gather`. -/
  | safeSend (ws : ω) (text : β) (gather : Nat)
  /-- `_broadcast` resumes with the results of its `gather`. -/
  | resume (gather : Nat)
deriving DecidableEq

/-- The clients whose sends a `gather` is waiting for, and those whose sends have failed. -/
structure Gather (ω : Type) where
  waiting : List ω
  stale : List ω
deriving DecidableEq

structure EventLoop (ω β : Type) where
  wsClients : List ω
  closed : List ω
  ready : List (Task ω β)
  gathers : List (Gather ω)
  /-- The sends that wait for their buffers. -/
  draining : List (Nat × ω)
  forwarded : List β
  sent : List (ω × β)
deriving DecidableEq

namespace EventLoop

def started : EventLoop ω β := ⟨[], [], [], [], [], [], []⟩

def schedule (b : EventLoop ω β) (tasks : List (Task ω β)) : EventLoop ω β := { b with ready := b.ready ++ tasks }

/-- `on_server_message`, with the text of the message: `ENABLE_PNL_DASHBOARD` is `False`. `on_disconnect` does the same. -/
def onServerMessage (b : EventLoop ω β) (text : β) : EventLoop ω β :=
  { b with ready := b.ready ++ [.broadcast text], forwarded := b.forwarded ++ [text] }

/-- `_safe_send` returns; with the last result, the `gather` is done. -/
def complete (b : EventLoop ω β) (gather : Nat) (ws : ω) (ok : Bool) : EventLoop ω β :=
  match b.gathers[gather]? with
  | none => b
  | some g =>
    let g : Gather ω := ⟨g.waiting.erase ws, if ok then g.stale else g.stale ++ [ws]⟩
    { b with
      gathers := b.gathers.set gather g
      ready := if g.waiting.isEmpty then b.ready ++ [.resume gather] else b.ready }

def runTask (waits : Bool) (b : EventLoop ω β) : Task ω β → EventLoop ω β
  | .broadcast text =>
    if b.wsClients.isEmpty then b
    else
      { b with
        ready := b.ready ++ b.wsClients.map fun ws => .safeSend ws text b.gathers.length
        gathers := b.gathers ++ [⟨b.wsClients, []⟩] }
  | .safeSend ws text gather =>
    if ws ∈ b.closed then b.complete gather ws false
    else
      let b := { b with sent := b.sent ++ [(ws, text)] }
      if waits then { b with draining := b.draining ++ [(gather, ws)] } else b.complete gather ws true
  | .resume gather =>
    match b.gathers[gather]? with
    | none => b
    | some g => { b with wsClients := b.wsClients.filter (· ∉ g.stale) }

/-- What happens to the bridge: a text comes, a browser is accepted, its handler ends, its socket closes, the loop runs a
task, a buffer has drained. -/
inductive Event (ω β : Type)
  | forward (text : β)
  | connect (ws : ω)
  | leave (ws : ω)
  | close (ws : ω)
  | run (waits : Bool)
  | drained (gather : Nat) (ws : ω)
deriving DecidableEq

def step (b : EventLoop ω β) : Event ω β → EventLoop ω β
  | .forward text => b.onServerMessage text
  | .connect ws => { b with wsClients := if ws ∈ b.wsClients then b.wsClients else b.wsClients ++ [ws] }
  | .leave ws => { b with wsClients := b.wsClients.filter (· ≠ ws) }
  | .close ws => { b with closed := b.closed ++ [ws] }
  | .run waits =>
    match b.ready with
    | [] => b
    | t :: ready => runTask waits { b with ready } t
  | .drained gather ws =>
    if (gather, ws) ∈ b.draining then
      { b with draining := b.draining.erase (gather, ws) }.complete gather ws (ws ∉ b.closed)
    else b

def run (events : List (Event ω β)) : EventLoop ω β := events.foldl step started

/-! ## Where a text is -/

/-- What a browser has been sent. -/
def delivered (b : EventLoop ω β) (ws : ω) : List β := (b.sent.filter (·.1 = ws)).map (·.2)

end EventLoop

/-- The text that a task is about to send to a browser. -/
def Task.sendTo (ws : ω) : Task ω β → Option β
  | .safeSend ws' text _ => if ws' = ws then some text else none
  | _ => none

/-- The text of a broadcast that has not started. -/
def Task.text : Task ω β → Option β
  | .broadcast text => some text
  | _ => none

namespace EventLoop

def sends (b : EventLoop ω β) (ws : ω) : List β := b.ready.filterMap (Task.sendTo ws)

def broadcasts (b : EventLoop ω β) : List β := b.ready.filterMap Task.text

/-- The texts on their way to a browser that stays. -/
def underway (b : EventLoop ω β) (ws : ω) : List β := b.sends ws ++ b.broadcasts

/-- A socket that a `gather` has found stale is closed; a browser is connected once. -/
structure Wf (b : EventLoop ω β) : Prop where
  stale : ∀ g ∈ b.gathers, ∀ ws ∈ g.stale, ws ∈ b.closed
  nodup : b.wsClients.Nodup

omit [DecidableEq ω] in
theorem wf_started : Wf (started : EventLoop ω β) := ⟨fun _ h => (List.not_mem_nil h).elim, .nil⟩

/-- The bridge does nothing that a browser sees. -/
structure Frame (b b' : EventLoop ω β) : Prop where
  wsClients : b'.wsClients = b.wsClients
  closed : b'.closed = b.closed
  sent : b'.sent = b.sent
  forwarded : b'.forwarded = b.forwarded
  sends : ∀ ws, b'.sends ws = b.sends ws
  broadcasts : b'.broadcasts = b.broadcasts

theorem complete_frame (b : EventLoop ω β) (gather : Nat) (ws : ω) (ok : Bool) : Frame b (b.complete gather ws ok) := by
  unfold complete
  cases b.gathers[gather]? with
  | none => exact ⟨rfl, rfl, rfl, rfl, fun _ => rfl, rfl⟩
  | some g =>
    refine ⟨rfl, rfl, rfl, rfl, fun ws => ?_, ?_⟩
    · dsimp only [EventLoop.sends]
      split_ifs
      · rw [List.filterMap_append]
        exact List.append_nil _
      · rfl
    · dsimp only [EventLoop.broadcasts]
      split_ifs
      · rw [List.filterMap_append]
        exact List.append_nil _
      · rfl

theorem complete_wf {b : EventLoop ω β} (h : Wf b) (gather : Nat) {ws : ω} {ok : Bool} (hok : ok = false → ws ∈ b.closed) :
    Wf (b.complete gather ws ok) := by
  have hf := complete_frame b gather ws ok
  refine ⟨fun g' hg' => ?_, by rw [hf.wsClients]; exact h.nodup⟩
  rw [hf.closed]
  unfold complete at hg'
  cases hg : b.gathers[gather]? with
  | none =>
    rw [hg] at hg'
    exact h.stale g' hg'
  | some g =>
    rw [hg] at hg'
    rcases List.mem_or_eq_of_mem_set hg' with hm | rfl
    · exact h.stale g' hm
    · have hstale := h.stale g (List.mem_of_getElem? hg)
      cases ok with
      | true => exact hstale
      | false =>
        intro ws' hws'
        rcases List.mem_append.1 hws' with hm | hm
        · exact hstale ws' hm
        · exact List.mem_singleton.1 hm ▸ hok rfl

/-- What has been sent to a browser since it came, and what is on its way, of the texts that are due to it. -/
structure Follows (ws : ω) (due : List β) (b : EventLoop ω β) : Prop where
  member : ws ∈ b.wsClients → ws ∉ b.closed → b.delivered ws ++ b.underway ws = due
  isOpen : ws ∉ b.closed → b.delivered ws ++ b.sends ws <+: due
  delivered : b.delivered ws <+: due

/-- The text that an event brings. -/
def Event.text : Event ω β → List β
  | .forward text => [text]
  | _ => []

section Follows

variable {ws : ω} {due : List β} {b b' : EventLoop ω β}

theorem Frame.delivered (h : Frame b b') (ws : ω) : b'.delivered ws = b.delivered ws := by
  unfold EventLoop.delivered
  rw [h.sent]

theorem Frame.follows (h : Frame b b') (hF : Follows ws due b) : Follows ws due b' := by
  refine ⟨?_, ?_, ?_⟩
  · unfold underway
    rw [h.wsClients, h.closed, h.delivered, h.sends, h.broadcasts]
    exact hF.member
  · rw [h.closed, h.delivered, h.sends]
    exact hF.isOpen
  · rw [h.delivered]
    exact hF.delivered

/-- Browsers may go. -/
theorem Follows.mono (h : Follows ws due b) (hm : ws ∈ b'.wsClients → ws ∈ b.wsClients) (hc : ws ∈ b.closed → ws ∈ b'.closed)
    (hs : b'.sent = b.sent) (hr : b'.ready = b.ready) : Follows ws due b' := by
  have hd : b'.delivered ws = b.delivered ws := by unfold EventLoop.delivered; rw [hs]
  have hsends : b'.sends ws = b.sends ws := by unfold EventLoop.sends; rw [hr]
  have hbroadcasts : b'.broadcasts = b.broadcasts := by unfold EventLoop.broadcasts; rw [hr]
  refine ⟨fun h1 h2 => ?_, fun h2 => ?_, ?_⟩
  · unfold underway
    rw [hd, hsends, hbroadcasts]
    exact h.member (hm h1) (mt hc h2)
  · rw [hd, hsends]
    exact h.isOpen (mt hc h2)
  · rw [hd]
    exact h.delivered

theorem sends_onServerMessage (b : EventLoop ω β) (ws : ω) (text : β) : (b.onServerMessage text).sends ws = b.sends ws := by
  unfold EventLoop.sends EventLoop.onServerMessage
  rw [List.filterMap_append]
  exact List.append_nil _

/-- A text is due to whoever is there. -/
theorem Follows.onServerMessage (h : Follows ws due b) (text : β) : Follows ws (due ++ [text]) (b.onServerMessage text) := by
  have hsends := sends_onServerMessage b ws text
  have hbroadcasts : (b.onServerMessage text).broadcasts = b.broadcasts ++ [text] := List.filterMap_append
  refine ⟨fun h1 h2 => ?_, fun h2 => ?_, h.delivered.trans (List.prefix_append _ _)⟩
  · unfold underway
    rw [hsends, hbroadcasts, ← h.member h1 h2, underway, List.append_assoc, List.append_assoc]
    rfl
  · rw [hsends]
    exact (h.isOpen h2).trans (List.prefix_append _ _)

/-- The sends that a broadcast makes ready for a browser. -/
theorem sendTo_clients {clients : List ω} (hnd : clients.Nodup) (ws : ω) (text : β) (gather : Nat) :
    (clients.map fun ws' => Task.safeSend ws' text gather).filterMap (Task.sendTo ws) = if ws ∈ clients then [text] else [] := by
  induction clients with
  | nil => rfl
  | cons ws' clients ih =>
    obtain ⟨hn, hnd⟩ := List.nodup_cons.1 hnd
    rw [List.map_cons, List.filterMap_cons, ih hnd]
    by_cases he : ws' = ws
    · subst he
      simp [Task.sendTo, hn]
    · have he' : ¬ ws = ws' := fun h => he h.symm
      simp [Task.sendTo, he, he']

/-- A broadcast starts. -/
theorem Follows.broadcast (h : Follows ws due b) (hw : Wf b) {text : β} {rest : List (Task ω β)}
    (hr : b.ready = .broadcast text :: rest) (waits : Bool) :
    Follows ws due (runTask waits { b with ready := rest } (.broadcast text)) := by
  have hsends : b.sends ws = rest.filterMap (Task.sendTo ws) := by unfold EventLoop.sends; rw [hr]; rfl
  have hbroadcasts : b.broadcasts = text :: rest.filterMap Task.text := by unfold EventLoop.broadcasts; rw [hr]; rfl
  unfold runTask
  dsimp only
  split_ifs with he
  · have hnone : ws ∉ b.wsClients := by rw [List.isEmpty_iff.1 he]; exact List.not_mem_nil
    refine ⟨fun h1 => absurd h1 hnone, fun h2 => ?_, h.delivered⟩
    have := h.isOpen h2
    rw [hsends] at this
    exact this
  · have hsends' : ({ b with
        ready := rest ++ b.wsClients.map fun ws => .safeSend ws text b.gathers.length
        gathers := b.gathers ++ [⟨b.wsClients, []⟩] } : EventLoop ω β).sends ws =
        b.sends ws ++ if ws ∈ b.wsClients then [text] else [] := by
      unfold EventLoop.sends
      rw [hr, List.filterMap_append, sendTo_clients hw.nodup]
      rfl
    have hbroadcasts' : ({ b with
        ready := rest ++ b.wsClients.map fun ws => .safeSend ws text b.gathers.length
        gathers := b.gathers ++ [⟨b.wsClients, []⟩] } : EventLoop ω β).broadcasts = rest.filterMap Task.text := by
      unfold EventLoop.broadcasts
      rw [List.filterMap_append, List.filterMap_map]
      exact (congrArg _ (List.filterMap_eq_nil_iff.2 fun _ _ => rfl)).trans (List.append_nil _)
    refine ⟨fun h1 h2 => ?_, fun h2 => ?_, h.delivered⟩
    · have := h.member h1 h2
      unfold underway at this ⊢
      rw [hsends', hbroadcasts', if_pos h1, List.append_assoc (b.sends ws), List.singleton_append, ← hbroadcasts]
      exact this
    · rw [hsends']
      by_cases hm : ws ∈ b.wsClients
      · have := h.member hm h2
        unfold underway at this
        rw [hbroadcasts] at this
        rw [if_pos hm, ← this]
        exact ⟨rest.filterMap Task.text, by rw [List.append_assoc, List.append_assoc]; rfl⟩
      · rw [if_neg hm, List.append_nil]
        exact h.isOpen h2

/-- A send starts. -/
theorem Follows.safeSend (h : Follows ws due b) {ws' : ω} {text : β} {gather : Nat} {rest : List (Task ω β)}
    (hr : b.ready = .safeSend ws' text gather :: rest) (waits : Bool) :
    Follows ws due (runTask waits { b with ready := rest } (.safeSend ws' text gather)) := by
  have hbroadcasts : b.broadcasts = rest.filterMap Task.text := by unfold EventLoop.broadcasts; rw [hr]; rfl
  have hsends : b.sends ws = (if ws' = ws then [text] else []) ++ rest.filterMap (Task.sendTo ws) := by
    unfold EventLoop.sends
    rw [hr, List.filterMap_cons]
    by_cases he : ws' = ws <;> simp [Task.sendTo, he]
  unfold runTask
  dsimp only
  split_ifs with hc hwaits
  · -- nothing is sent, and nothing more will be to this socket
    refine (complete_frame _ _ _ _).follows ⟨fun h1 h2 => ?_, fun h2 => ?_, h.delivered⟩
    · have hne : ws' ≠ ws := fun he => h2 (he ▸ hc)
      have := h.member h1 h2
      rw [underway, hsends, if_neg hne, List.nil_append, hbroadcasts] at this
      exact this
    · have hne : ws' ≠ ws := fun he => h2 (he ▸ hc)
      have := h.isOpen h2
      rw [hsends, if_neg hne, List.nil_append] at this
      exact this
  all_goals
    have hsent : Follows ws due { b with ready := rest, sent := b.sent ++ [(ws', text)] } := by
      have hdelivered : ({ b with ready := rest, sent := b.sent ++ [(ws', text)] } : EventLoop ω β).delivered ws =
          b.delivered ws ++ if ws' = ws then [text] else [] := by
        unfold EventLoop.delivered
        rw [List.filter_append, List.map_append]
        by_cases he : ws' = ws <;> simp [he]
      have hopen : ws ∉ b.closed → b.delivered ws ++ (if ws' = ws then [text] else []) <+: due := by
        intro h2
        have := h.isOpen h2
        rw [hsends, ← List.append_assoc] at this
        exact (List.prefix_append _ _).trans this
      refine ⟨fun h1 h2 => ?_, fun h2 => ?_, ?_⟩
      · have := h.member h1 h2
        rw [underway, hsends, hbroadcasts, List.append_assoc, ← List.append_assoc (b.delivered ws)] at this
        rw [hdelivered]
        exact this
      · have := h.isOpen h2
        rw [hsends, ← List.append_assoc] at this
        rw [hdelivered]
        exact this
      · rw [hdelivered]
        by_cases he : ws' = ws
        · exact hopen (he ▸ hc)
        · rw [if_neg he, List.append_nil]
          exact h.delivered
  · exact hsent.mono id id rfl rfl
  · exact (complete_frame _ _ _ _).follows hsent

theorem Follows.step (h : Follows ws due b) (hw : Wf b) {e : Event ω β} (he : e ≠ .connect ws) :
    Follows ws (due ++ e.text) (b.step e) := by
  have hnil : due ++ [] = due := List.append_nil due
  cases e with
  | forward text => exact h.onServerMessage text
  | connect ws' =>
    refine hnil.symm ▸ ?_
    refine h.mono (fun hm => ?_) id rfl rfl
    have hne : ws ≠ ws' := fun h => he (h ▸ rfl)
    dsimp only [EventLoop.step] at hm
    split_ifs at hm
    · exact hm
    · exact (List.mem_append.1 hm).resolve_right fun h => hne (List.mem_singleton.1 h)
  | leave ws' =>
    refine hnil.symm ▸ ?_
    exact h.mono (fun hm => (List.mem_filter.1 hm).1) id rfl rfl
  | close ws' =>
    refine hnil.symm ▸ ?_
    exact h.mono id (List.mem_append_left _) rfl rfl
  | run waits =>
    refine hnil.symm ▸ ?_
    unfold EventLoop.step
    dsimp only
    split
    · exact h
    · next t rest hr =>
      cases t with
      | broadcast text => exact h.broadcast hw hr waits
      | safeSend ws' text gather => exact h.safeSend hr waits
      | resume gather =>
        have hsends : b.sends ws = rest.filterMap (Task.sendTo ws) := by unfold EventLoop.sends; rw [hr]; rfl
        have hrest : Follows ws due { b with ready := rest } := by
          have hbroadcasts : b.broadcasts = rest.filterMap Task.text := by unfold EventLoop.broadcasts; rw [hr]; rfl
          refine ⟨fun h1 h2 => ?_, fun h2 => ?_, h.delivered⟩
          · have := h.member h1 h2
            rw [underway, hsends, hbroadcasts] at this
            exact this
          · have := h.isOpen h2
            rw [hsends] at this
            exact this
        unfold runTask
        dsimp only
        split
        · exact hrest
        · exact hrest.mono (fun hm => (List.mem_filter.1 hm).1) id rfl rfl
  | drained gather ws' =>
    refine hnil.symm ▸ ?_
    unfold EventLoop.step
    dsimp only
    split_ifs
    · exact (complete_frame _ _ _ _).follows (h.mono id id rfl rfl)
    · exact h

end Follows

theorem Wf.runTask {b : EventLoop ω β} (h : Wf b) (waits : Bool) (t : Task ω β) : Wf (b.runTask waits t) := by
  cases t with
  | broadcast text =>
    unfold EventLoop.runTask
    dsimp only
    split_ifs
    · exact h
    · refine ⟨fun g hg ws hws => ?_, h.nodup⟩
      rcases List.mem_append.1 hg with hg | hg
      · exact h.stale g hg ws hws
      · rw [List.mem_singleton.1 hg] at hws
        exact (List.not_mem_nil hws).elim
  | safeSend ws text gather =>
    unfold EventLoop.runTask
    dsimp only
    split_ifs with hc
    · exact complete_wf h gather fun _ => hc
    · exact ⟨h.stale, h.nodup⟩
    · have hsent : Wf { b with sent := b.sent ++ [(ws, text)] } := ⟨h.stale, h.nodup⟩
      exact complete_wf hsent gather fun hf => by cases hf
  | resume gather =>
    unfold EventLoop.runTask
    dsimp only
    split
    · exact h
    · exact ⟨h.stale, h.nodup.filter _⟩

theorem Wf.step {b : EventLoop ω β} (h : Wf b) (e : Event ω β) : Wf (b.step e) := by
  cases e with
  | forward text => exact ⟨h.stale, h.nodup⟩
  | connect ws =>
    refine ⟨h.stale, ?_⟩
    dsimp only [EventLoop.step]
    split_ifs with hm
    · exact h.nodup
    · exact List.nodup_append.2 ⟨h.nodup, List.nodup_singleton _, fun a ha b hb heq =>
        hm (List.mem_singleton.1 hb ▸ heq ▸ ha)⟩
  | leave ws => exact ⟨h.stale, h.nodup.filter _⟩
  | close ws => exact ⟨fun g hg ws hws => List.mem_append_left _ (h.stale g hg ws hws), h.nodup⟩
  | run waits =>
    unfold EventLoop.step
    dsimp only
    split
    · exact h
    · next t rest _ =>
      have hrest : Wf { b with ready := rest } := ⟨h.stale, h.nodup⟩
      exact hrest.runTask waits t
  | drained gather ws =>
    unfold EventLoop.step
    dsimp only
    split_ifs
    · have hdrained : Wf { b with draining := b.draining.erase (gather, ws) } := ⟨h.stale, h.nodup⟩
      exact complete_wf hdrained gather fun hf => by simpa using hf
    · exact h

theorem run_wf (events : List (Event ω β)) : Wf (run events) := by
  unfold run
  induction events using List.reverseRecOn with
  | nil => exact wf_started
  | append_singleton events e ih => rw [List.foldl_append]; exact ih.step e

/-- A browser that has not come gets nothing. -/
structure Absent (ws : ω) (b : EventLoop ω β) : Prop where
  follows : Follows ws [] b
  wsClients : ws ∉ b.wsClients
  closed : ws ∉ b.closed

/-- The browser's handler does not end, and its socket stays open. -/
def Event.Stays (ws : ω) (e : Event ω β) : Prop := e ≠ .leave ws ∧ e ≠ .close ws

instance [DecidableEq β] (ws : ω) (e : Event ω β) : Decidable (e.Stays ws) := inferInstanceAs (Decidable (_ ∧ _))

section Run

variable {ws : ω} {b : EventLoop ω β}

/-- Who is connected, and whose socket is closed, while a browser neither comes nor goes. -/
theorem step_clients (hw : Wf b) {e : Event ω β} (he : e ≠ .connect ws) (hs : e.Stays ws) (hc : ws ∉ b.closed) :
    (ws ∈ (b.step e).wsClients ↔ ws ∈ b.wsClients) ∧ ws ∉ (b.step e).closed := by
  cases e with
  | forward text => exact ⟨Iff.rfl, hc⟩
  | connect ws' =>
    have hne : ws ≠ ws' := fun h => he (h ▸ rfl)
    refine ⟨?_, hc⟩
    dsimp only [EventLoop.step]
    split_ifs
    · exact Iff.rfl
    · simp [hne]
  | leave ws' =>
    have hne : ws ≠ ws' := fun h => hs.1 (h ▸ rfl)
    exact ⟨by simp [EventLoop.step, hne], hc⟩
  | close ws' =>
    have hne : ws ≠ ws' := fun h => hs.2 (h ▸ rfl)
    exact ⟨Iff.rfl, by simp [EventLoop.step, hne, hc]⟩
  | run waits =>
    unfold EventLoop.step
    dsimp only
    split
    · exact ⟨Iff.rfl, hc⟩
    · next t rest _ =>
      cases t with
      | broadcast text =>
        unfold runTask
        dsimp only
        split_ifs <;> exact ⟨Iff.rfl, hc⟩
      | safeSend ws' text gather =>
        unfold runTask
        dsimp only
        split_ifs
        · have hf := complete_frame { b with ready := rest } gather ws' false
          rw [hf.wsClients, hf.closed]
          exact ⟨Iff.rfl, hc⟩
        · exact ⟨Iff.rfl, hc⟩
        · have hf := complete_frame { b with ready := rest, sent := b.sent ++ [(ws', text)] } gather ws' true
          rw [hf.wsClients, hf.closed]
          exact ⟨Iff.rfl, hc⟩
      | resume gather =>
        unfold runTask
        dsimp only
        split
        · exact ⟨Iff.rfl, hc⟩
        · next g hg =>
          have hn : ws ∉ g.stale := fun hm => hc (hw.stale g (List.mem_of_getElem? hg) ws hm)
          exact ⟨by simp [hn], hc⟩
  | drained gather ws' =>
    unfold EventLoop.step
    dsimp only
    split_ifs
    · have hf := complete_frame { b with draining := b.draining.erase (gather, ws') } gather ws' (ws' ∉ b.closed)
      rw [hf.wsClients, hf.closed]
      exact ⟨Iff.rfl, hc⟩
    · exact ⟨Iff.rfl, hc⟩

theorem Absent.step (h : Absent ws b) (hw : Wf b) {e : Event ω β} (he : e ≠ .connect ws) (hs : e.Stays ws) :
    Absent ws (b.step e) := by
  obtain ⟨hm, hc⟩ := step_clients hw he hs h.closed
  refine ⟨?_, mt hm.1 h.wsClients, hc⟩
  cases e with
  | forward text =>
    refine ⟨fun h1 => absurd h1 h.wsClients, fun h2 => ?_, h.follows.delivered⟩
    show (b.onServerMessage text).delivered ws ++ (b.onServerMessage text).sends ws <+: []
    rw [sends_onServerMessage]
    exact h.follows.isOpen h2
  | _ => exact h.follows.step hw he

theorem run_absent {events : List (Event ω β)} (h : ∀ e ∈ events, e ≠ .connect ws ∧ e.Stays ws) : Absent ws (run events) := by
  unfold run
  induction events using List.reverseRecOn with
  | nil => exact ⟨⟨fun h => absurd h List.not_mem_nil, fun _ => List.prefix_rfl, List.prefix_rfl⟩, List.not_mem_nil, List.not_mem_nil⟩
  | append_singleton events e ih =>
    obtain ⟨he, hs⟩ := h e (List.mem_append_right _ (List.mem_singleton.2 rfl))
    rw [List.foldl_append]
    exact (ih fun e he => h e (List.mem_append_left _ he)).step (run_wf events) he hs

/-- A browser comes: what has not been broadcast yet is due to it, too. -/
theorem Absent.connect (h : Absent ws b) : Follows ws b.broadcasts (b.step (.connect ws)) ∧
    ws ∈ (b.step (.connect ws)).wsClients ∧ ws ∉ (b.step (.connect ws)).closed := by
  have hnil := List.prefix_nil.1 (h.follows.isOpen h.closed)
  obtain ⟨hd, hsends⟩ := List.append_eq_nil_iff.1 hnil
  refine ⟨⟨fun _ _ => ?_, fun _ => ?_, ?_⟩, ?_, h.closed⟩
  · show b.delivered ws ++ (b.sends ws ++ b.broadcasts) = b.broadcasts
    rw [hd, hsends, List.nil_append, List.nil_append]
  · show b.delivered ws ++ b.sends ws <+: b.broadcasts
    rw [hnil]
    exact List.nil_prefix
  · show b.delivered ws <+: b.broadcasts
    rw [hd]
    exact List.nil_prefix
  · dsimp only [EventLoop.step]
    rw [if_neg h.wsClients]
    exact List.mem_append_right _ (List.mem_singleton.2 rfl)

/-- The texts that a run brings. -/
theorem forwarded_step (b : EventLoop ω β) (e : Event ω β) : (b.step e).forwarded = b.forwarded ++ e.text := by
  have hnil : b.forwarded ++ [] = b.forwarded := List.append_nil _
  cases e with
  | forward text => rfl
  | run waits =>
    refine Eq.trans ?_ hnil.symm
    unfold EventLoop.step
    dsimp only
    split
    · rfl
    · next t rest _ =>
      unfold runTask
      cases t with
      | broadcast => dsimp only; split_ifs <;> rfl
      | safeSend => dsimp only; split_ifs <;> first | exact (complete_frame _ _ _ _).forwarded | rfl
      | resume => dsimp only; split <;> rfl
  | drained gather ws =>
    refine Eq.trans ?_ hnil.symm
    unfold EventLoop.step
    dsimp only
    split_ifs
    · exact (complete_frame _ _ _ _).forwarded
    · rfl
  | _ => exact hnil.symm

/-- A run from a state in which the texts `due` are due to the browser. -/
theorem Follows.run {due : List β} {events : List (Event ω β)} (hw : Wf b) (h : Follows ws due b)
    (he : ∀ e ∈ events, e ≠ .connect ws) : let b' := events.foldl EventLoop.step b
    b.forwarded <+: b'.forwarded ∧ Follows ws (due ++ b'.forwarded.drop b.forwarded.length) b' ∧
      (ws ∈ b.wsClients → ws ∉ b.closed → (∀ e ∈ events, e.Stays ws) → ws ∈ b'.wsClients ∧ ws ∉ b'.closed) := by
  induction events generalizing b due with
  | nil => exact ⟨List.prefix_rfl, by simpa using h, fun hm hc _ => ⟨hm, hc⟩⟩
  | cons e events ih =>
    have hne := he e List.mem_cons_self
    obtain ⟨⟨later, hlater⟩, hF, hstay⟩ := ih (hw.step e) (h.step hw hne) fun e h => he e (List.mem_cons_of_mem _ h)
    rw [forwarded_step] at hlater
    refine ⟨⟨e.text ++ later, by rw [← List.append_assoc]; exact hlater⟩, ?_, fun hm hc hs => ?_⟩
    · rw [forwarded_step, ← hlater, List.drop_left, List.append_assoc] at hF
      rw [List.foldl_cons, ← hlater, List.append_assoc, List.drop_left]
      exact hF
    · obtain ⟨hm', hc'⟩ := step_clients hw hne (hs e List.mem_cons_self) hc
      exact hstay (hm'.2 hm) hc' fun e h => hs e (List.mem_cons_of_mem _ h)

end Run

/-- The broadcasts that have not started are the latest. -/
theorem step_pending {b : EventLoop ω β} (h : b.broadcasts <:+ b.forwarded) (e : Event ω β) :
    (b.step e).broadcasts <:+ (b.step e).forwarded := by
  cases e with
  | forward text =>
    obtain ⟨l, hl⟩ := h
    have hbroadcasts : (b.onServerMessage text).broadcasts = b.broadcasts ++ [text] := List.filterMap_append
    refine ⟨l, ?_⟩
    show l ++ (b.onServerMessage text).broadcasts = b.forwarded ++ [text]
    rw [hbroadcasts, ← List.append_assoc, hl]
  | run waits =>
    have hforwarded : (b.step (.run waits)).forwarded = b.forwarded :=
      (forwarded_step b (.run waits)).trans (List.append_nil _)
    rw [hforwarded]
    refine List.IsSuffix.trans ?_ h
    unfold EventLoop.step
    dsimp only
    split
    · exact List.suffix_rfl
    · next t rest hr =>
      have hrest : rest.filterMap Task.text <:+ b.broadcasts := by
        unfold EventLoop.broadcasts
        rw [hr]
        exact (List.suffix_cons t rest).filterMap _
      refine List.IsSuffix.trans ?_ hrest
      have hself : ({ b with ready := rest } : EventLoop ω β).broadcasts = rest.filterMap Task.text := rfl
      unfold runTask
      cases t with
      | broadcast text =>
        dsimp only
        split_ifs
        · exact List.suffix_rfl
        · unfold EventLoop.broadcasts
          rw [List.filterMap_append, List.filterMap_map]
          rw [show (b.wsClients.filterMap (Task.text ∘ fun ws => Task.safeSend ws text b.gathers.length)) = [] from
            List.filterMap_eq_nil_iff.2 fun _ _ => rfl, List.append_nil]
      | safeSend ws text gather =>
        dsimp only
        split_ifs
        · rw [(complete_frame _ _ _ _).broadcasts, hself]
        · exact List.suffix_rfl
        · rw [(complete_frame _ _ _ _).broadcasts]
          exact List.suffix_rfl
      | resume gather =>
        dsimp only
        split <;> exact List.suffix_rfl
  | drained gather ws =>
    unfold EventLoop.step
    dsimp only
    split_ifs
    · rw [(complete_frame _ _ _ _).broadcasts, (complete_frame _ _ _ _).forwarded]
      exact h
    · exact h
  | _ => exact h

theorem run_pending (events : List (Event ω β)) : (run events).broadcasts <:+ (run events).forwarded := by
  unfold run
  induction events using List.reverseRecOn with
  | nil => exact List.suffix_rfl
  | append_singleton events e ih => rw [List.foldl_append]; exact step_pending ih e

theorem run_forwarded (before events : List (Event ω β)) : (run before).forwarded <+: (run (before ++ events)).forwarded := by
  unfold run
  rw [List.foldl_append]
  generalize before.foldl step started = b
  induction events generalizing b with
  | nil => exact List.prefix_rfl
  | cons e events ih =>
    refine List.IsPrefix.trans ?_ (ih (b.step e))
    rw [forwarded_step]
    exact List.prefix_append _ _

/-- What is due to a browser that comes are the latest of all texts. -/
theorem due_suffix (before events : List (Event ω β)) : (run before).broadcasts ++
    (run (before ++ events)).forwarded.drop (run before).forwarded.length <:+ (run (before ++ events)).forwarded := by
  obtain ⟨later, hlater⟩ := run_forwarded before events
  obtain ⟨done, hdone⟩ := run_pending before
  rw [← hlater, List.drop_left, ← hdone, List.append_assoc]
  exact List.suffix_append _ _

/-- A browser that comes follows the texts due to it, and is there as long as its handler and its socket last. -/
theorem run_follows {ws : ω} {before events : List (Event ω β)} (hnew : ∀ e ∈ before, e ≠ .connect ws ∧ e.Stays ws)
    (honce : ∀ e ∈ events, e ≠ .connect ws) :
    let b := run before
    let b' := run (before ++ .connect ws :: events)
    Follows ws (b.broadcasts ++ b'.forwarded.drop b.forwarded.length) b' ∧
      ((∀ e ∈ events, e.Stays ws) → ws ∈ b'.wsClients ∧ ws ∉ b'.closed) := by
  obtain ⟨hfollows, hm, hc⟩ := (run_absent hnew).connect
  obtain ⟨-, hF, hstay⟩ := hfollows.run ((run_wf before).step _) honce
  have hrun : run (before ++ .connect ws :: events) = events.foldl step ((run before).step (.connect ws)) := by
    unfold run
    rw [List.foldl_append, List.foldl_cons]
  rw [hrun]
  exact ⟨hF, hstay hm hc⟩

/-- Whatever happens to the bridge and to its browsers: what a browser has been sent is, from its arrival on, what came from
the server, each text once, in order, and none left out between two others. As long as its handler and its socket last, all
the rest is on its way. -/
theorem run_broadcast (ws : ω) (before events : List (Event ω β)) (hnew : ∀ e ∈ before, e ≠ .connect ws ∧ e.Stays ws)
    (honce : ∀ e ∈ events, e ≠ .connect ws) :
    let b := run before
    let b' := run (before ++ .connect ws :: events)
    let due := b.broadcasts ++ b'.forwarded.drop b.forwarded.length
    b'.delivered ws <+: due ∧ ((∀ e ∈ events, e.Stays ws) → b'.delivered ws ++ b'.underway ws = due) := by
  obtain ⟨hF, hstay⟩ := run_follows hnew honce
  exact ⟨hF.delivered, fun hs => hF.member (hstay hs).1 (hstay hs).2⟩

/-- One browser comes while a text waits to be broadcast; another one fails meanwhile. -/
def sampleBefore : List (Event Nat Nat) := [.connect 0, .forward 1, .run false, .forward 2]

def sampleEvents : List (Event Nat Nat) :=
  [.close 0, .run true, .forward 3, .run false, .run false, .run false, .drained 1 1, .run false, .run false, .run false, .run false,
    .run false]

/-- Both texts have been sent to the new browser, and the third waits for its buffer no longer. -/
theorem run_broadcast_sampleEvents : let b := run (sampleBefore ++ .connect 1 :: sampleEvents)
    b.delivered 1 = [2, 3] ∧ b.delivered 1 ++ b.underway 1 = (run sampleBefore).broadcasts ++ b.forwarded.drop 2 ∧
      b.wsClients = [1] :=
  ⟨by decide, (run_broadcast 1 sampleBefore sampleEvents (by decide) (by decide)).2 (by decide), by decide⟩

end EventLoop

end OrderbookGC.Broadcast
