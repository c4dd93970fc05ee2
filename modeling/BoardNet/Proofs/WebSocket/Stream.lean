import BoardNet.Proofs.WebSocket.Outflow
import BoardNet.Proofs.WebSocket.Table

namespace BoardNet.WebSocket

open Poll

/-- How far the server has come with a connection: what was taken on its socket since it was taken
over, and which frames were queued. -/
inductive Slot.Streams (slot : Slot) (socket : SocketId) (trace : List Exchange)
    (frames : List ServerFrame) : Prop where
  | waiting (upgrading : slot.client.phase = .upgrading socket) (mute : Mute socket trace)
      (empty : slot.client.tx.toList = []) (none : frames = [])
  /-- Behind the response, what was taken and what is in the ring are the frames. -/
  | speaking (speaks : slot.client.phase.Speaks socket) (key : String) (sent : List UInt8)
      (taken : takenOn socket trace = response key ++ sent)
      (rest : sent ++ slot.client.tx.toList = ServerFrame.stream frames)
      (fit : ∀ frame ∈ frames, frame.Fits) (open_ : finishedOn socket trace = 0)

inductive Ended (socket : SocketId) (trace : List Exchange) (frames : List ServerFrame) : Prop where
  | refused (key : String) (part : takenOn socket trace <+: response key)
      (mute : finishedOn socket trace ≠ 0 → takenOn socket trace = []) (none : frames = [])
  /-- What was taken is the front of the frames, and all of them if it ended gracefully. -/
  | cut (key : String) (sent : List UInt8) (taken : takenOn socket trace = response key ++ sent)
      (part : sent <+: ServerFrame.stream frames) (fit : ∀ frame ∈ frames, frame.Fits)
      (whole : finishedOn socket trace ≠ 0 → sent = ServerFrame.stream frames)

theorem Ended.elsewhere {socket : SocketId} {trace later : List Exchange}
    {frames : List ServerFrame} (ended : Ended socket trace frames) (mute : Mute socket later) :
    Ended socket (trace ++ later) frames := by
  obtain ⟨taken, finished⟩ := mute.behind trace
  cases ended with
  | refused key part silent none =>
    refine .refused key ?_ ?_ none
    · rwa [taken]
    · rwa [taken, finished]
  | cut key sent answered part fit whole =>
    refine .cut key sent (taken.trans answered) part fit ?_
    rwa [finished]

/-- A connection has come so far, or has ended. -/
def Slot.Accounts (slot : Slot) (socket : SocketId) (trace : List Exchange)
    (frames : List ServerFrame) : Prop :=
  slot.Streams socket trace frames ∨ slot.Vacant ∧ Ended socket trace frames

theorem Slot.Accounts.fit {slot : Slot} {socket : SocketId} {trace : List Exchange}
    {frames : List ServerFrame} (accounts : slot.Accounts socket trace frames) :
    ∀ frame ∈ frames, frame.Fits := by
  have empty (none : frames = []) : ∀ frame ∈ frames, frame.Fits := by
    rw [none]
    nofun
  rcases accounts with streams | ⟨-, ended⟩
  · cases streams with
    | waiting _ _ _ none => exact empty none
    | speaking _ _ _ _ _ fit _ => exact fit
  · cases ended with
    | refused _ _ _ none => exact empty none
    | cut _ _ _ _ fit _ => exact fit

namespace Slot.Streams

variable {slot after : Slot} {socket : SocketId} {trace later : List Exchange}
  {frames further : List ServerFrame}

theorem held (streams : slot.Streams socket trace frames) :
    slot.client.phase.socket = some socket := by
  cases streams with
  | waiting upgrading => exact congrArg Phase.socket upgrading
  | speaking speaks => exact speaks.held

/-- A connection is not affected by what is done elsewhere. -/
theorem elsewhere (streams : slot.Streams socket trace frames) (mute : Mute socket later) :
    slot.Streams socket (trace ++ later) frames := by
  cases streams with
  | waiting upgrading quiet empty none => exact .waiting upgrading (quiet.append mute) empty none
  | speaking speaks key sent taken rest fit open_ =>
    obtain ⟨same, finished⟩ := mute.behind trace
    exact .speaking speaks key sent (same.trans taken) rest fit (finished.trans open_)

/-- When a client is let go, what it was still to hear is lost. -/
theorem cut (streams : slot.Streams socket trace frames) (mute : Mute socket later) :
    Ended socket (trace ++ later) frames := by
  cases streams.elsewhere mute with
  | waiting _ quiet _ none =>
    exact .refused "" (by rw [quiet.taken]; exact List.nil_prefix) (fun _ => quiet.taken) none
  | speaking _ key sent taken rest fit open_ =>
    exact .cut key sent taken ⟨_, rest⟩ fit fun finished => absurd open_ finished

/-- The frames that an application queues come behind the others. -/
theorem used (streams : slot.Streams socket trace frames) (uses : List Use) :
    { slot with client := (slot.client.useAll uses).2 }.Streams socket trace
      (frames ++ (slot.client.useAll uses).1) := by
  have phase := slot.client.phase_useAll uses
  cases streams with
  | waiting upgrading mute empty none =>
    obtain ⟨nothing, same⟩ := (Client.shut_of_upgrading upgrading).useAll uses
    refine .waiting (phase.trans upgrading) mute ?_ ?_
    · change (slot.client.useAll uses).2.tx.toList = []
      rw [same, empty]
    · rw [none, nothing]
      rfl
  | speaking speaks key sent taken rest fit open_ =>
    obtain ⟨further, queued⟩ := slot.client.toList_useAll uses
    refine .speaking ?_ key sent taken ?_ (List.forall_mem_append.mpr ⟨fit, further⟩) open_
    · change (slot.client.useAll uses).2.phase.Speaks socket
      rwa [phase]
    · change sent ++ (slot.client.useAll uses).2.tx.toList = _
      rw [queued, ← List.append_assoc, rest, ServerFrame.stream_append]

end Slot.Streams

section Parts

variable {socket : SocketId} {before trace : List Exchange} {key : String}
  {sent queued : List UInt8} {frames further : List ServerFrame} {after : Slot}

/-- What is done behind the upgrade continues what was sent and queued before. -/
theorem Passes.accounts (passes : Passes socket queued further trace after)
    (taken : takenOn socket before = response key ++ sent)
    (rest : sent ++ queued = ServerFrame.stream frames) (fit : ∀ frame ∈ frames, frame.Fits)
    (open_ : finishedOn socket before = 0) :
    after.Accounts socket (before ++ trace) (frames ++ further) := by
  have total : takenOn socket (before ++ trace) =
      response key ++ (sent ++ takenOn socket trace) := by
    rw [takenOn_append, taken, List.append_assoc]
  have count : finishedOn socket (before ++ trace) = finishedOn socket trace := by
    rw [finishedOn_append, open_, Nat.zero_add]
  have whole {left : List UInt8} (conserved : Conserved socket queued further trace left) :
      (sent ++ takenOn socket trace) ++ left = ServerFrame.stream (frames ++ further) := by
    rw [ServerFrame.stream_append, ← rest, List.append_assoc, ← conserved.bytes, List.append_assoc]
  cases passes with
  | kept speaks still conserved =>
    have fit := List.forall_mem_append.mpr ⟨fit, conserved.fit⟩
    exact .inl (.speaking speaks key _ total (whole conserved) fit (count.trans still))
  | released vacant lost conserved finishes =>
    have fit := List.forall_mem_append.mpr ⟨fit, conserved.fit⟩
    refine .inr ⟨vacant, .cut key _ total ⟨lost, whole conserved⟩ fit fun finished => ?_⟩
    rw [count] at finished
    have all := whole conserved
    rwa [finishes finished, List.append_nil] at all

end Parts

namespace Turn

variable {C : Type} {turn after : Turn C} {socket : SocketId} {settings : Settings}
  {handler : MessageHandler C} {script : Script C} {now : Millis} {before trace : List Exchange}
  {frames told : List ServerFrame}

/-- A turn continues the stream of its client: what is taken follows what was taken, and what is
queued follows what was queued. -/
theorem accounts_service (plays : handler.Plays script)
    (streams : turn.slot.Streams socket before frames)
    (path : Path (turn.serviceTelling settings handler script now) trace (after, told)) :
    after.slot.Accounts socket (before ++ trace) (frames ++ told) := by
  simp only [serviceTelling, streams.held] at path
  rw [path_bind] at path
  obtain ⟨checking, trace, present, rfl, checked, path⟩ := path
  rw [path_bind] at path
  obtain ⟨asking, trace, upgraded, rfl, upgrading, path⟩ := path
  rw [path_bind] at path
  obtain ⟨talking, trace, ⟨conversed, heard⟩, rfl, conversing, path⟩ := path
  rw [path_bind] at path
  obtain ⟨sending, trace, drained, rfl, draining, path⟩ := path
  rw [path_bind] at path
  obtain ⟨ending, last, ended, rfl, finishing, path⟩ := path
  obtain ⟨rfl, same⟩ := path_done.mp path
  cases same
  rw [List.append_nil]
  obtain ⟨looked, gone | rfl⟩ := path_checkPeer_cases checked
  -- the peer left, and no later part does anything
  · have other : ∀ own, present.slot.client.phase ≠ .upgrading own := by
      rw [gone]
      nofun
    obtain ⟨rfl, rfl⟩ := path_upgrade_of_ne other upgrading
    obtain ⟨silent, rfl, rfl⟩ := path_rest_of_silent gone.not_speaks conversing draining finishing
    simp only [silent, List.append_nil]
    exact .inr ⟨gone, streams.cut looked⟩
  -- behind the upgrade the other parts are one passage; before it the upgrade decides
  · have streams := streams.elsewhere looked
    rw [← List.append_assoc]
    cases streams with
    | speaking speaks key sent taken rest fit open_ =>
      have other : ∀ own, present.slot.client.phase ≠ .upgrading own := by
        rcases speaks with connected | closing
        · rw [connected]
          nofun
        · rw [closing]
          nofun
      obtain ⟨rfl, rfl⟩ := path_upgrade_of_ne other upgrading
      have passes := passes_speaking plays speaks conversing draining finishing
      exact passes.accounts taken rest fit open_
    | waiting waits mute empty none =>
      rw [none, List.nil_append]
      have upgrades := upgrades_upgrade waits upgrading
      obtain ⟨answered, ended⟩ := mute.before asking
      cases upgrades with
      | waits quiet still kept =>
        have quietly : ∀ own, ¬upgraded.slot.client.phase.Speaks own := by
          rw [still]
          exact fun _ => Phase.not_speaks_upgrading
        obtain ⟨silent, rfl, rfl⟩ := path_rest_of_silent quietly conversing draining finishing
        rw [silent, List.append_nil]
        exact .inl (.waiting still (mute.append quiet) (by rw [kept, empty]) rfl)
      | refused key part silent vacant =>
        obtain ⟨nothing, rfl, rfl⟩ :=
          path_rest_of_silent vacant.not_speaks conversing draining finishing
        rw [nothing, List.append_nil]
        refine .inr ⟨vacant, .refused key ?_ ?_ rfl⟩
        · rwa [answered]
        · rwa [answered, ended]
      | opened key taken open_ connected kept =>
        have passes := passes_speaking plays (.inl connected) conversing draining finishing
        rw [kept, empty] at passes
        have whole : takenOn socket ((before ++ checking) ++ asking) = response key ++ [] := by
          rw [answered, taken, List.append_nil]
        have nothing : [] ++ [] = ServerFrame.stream [] := rfl
        have accounts := passes.accounts whole nothing nofun (ended.trans open_)
        rwa [List.append_assoc] at accounts

/-- What a turn does can be seen with the events in it, too. -/
theorem noting_of_telling
    (path : Path (turn.serviceTelling settings handler script now) trace (after, told)) :
    ∃ events, Path (turn.serviceNoting settings handler now) trace (after, events) := by
  have plain : Path (turn.service settings handler now) trace after := by
    rw [← fst_serviceTelling turn settings handler script, path_map]
    exact ⟨_, path, rfl⟩
  rw [← fst_serviceNoting, path_map] at plain
  obtain ⟨⟨_, events⟩, path, rfl⟩ := plain
  exact ⟨events, path⟩

end Turn

namespace Server

variable {C : Type} {server after : Server} {handler : MessageHandler C} {script : Script C}
  {now : Millis} {context left : C} {trace before : List Exchange} {told : Told}
  {ids : List (Fin maxClients)} {id : Fin maxClients} {socket : SocketId}
  {frames : List ServerFrame}

theorem noting_of_telling
    (path : Path (serviceAllTelling handler script now ids server context) trace
      ((after, left), told)) :
    ∃ notes, Path (serviceAllNoting handler now ids server context) trace
      ((after, left), notes) := by
  have plain : Path (serviceAll handler now ids server context) trace (after, left) := by
    rw [← fst_serviceAllTelling handler script, path_map]
    exact ⟨_, path, rfl⟩
  rw [← fst_serviceAllNoting, path_map] at plain
  obtain ⟨⟨_, notes⟩, path, rfl⟩ := plain
  exact ⟨notes, path⟩

theorem path_serviceAllTelling_cons {first : Fin maxClients}
    (path : Path (serviceAllTelling handler script now (first :: ids) server context) trace
      ((after, left), told)) :
    ∃ (turning further : List Exchange) (ended : Turn C) (queued : List ServerFrame)
      (serviced : Server) (later : Told), trace = turning ++ further ∧
      told = (fun other => (if first = other then queued else []) ++ later other) ∧
      Path (Turn.serviceTelling ⟨server.slots.get first, server.stats, context⟩ server.settings
        handler script now) turning (ended, queued) ∧
      serviced.slots = server.slots.set first ended.slot first.isLt ∧
      Path (serviceAllTelling handler script now ids serviced ended.context) further
        ((after, left), later) := by
  rw [serviceAllTelling, path_bind] at path
  obtain ⟨turning, rest, ⟨ended, queued⟩, rfl, turned, path⟩ := path
  rw [path_bind] at path
  obtain ⟨further, last, ⟨⟨final, left⟩, later⟩, rfl, going, path⟩ := path
  obtain ⟨rfl, same⟩ := path_done.mp path
  cases same
  exact ⟨turning, further, ended, queued, _, later, by rw [List.append_nil], rfl, turned, rfl,
    going⟩

/-- No frames are queued to clients whose turns these are not. -/
theorem told_of_not_mem (out : id ∉ ids)
    (path : Path (serviceAllTelling handler script now ids server context) trace
      ((after, left), told)) : told id = [] := by
  induction ids generalizing server context trace told with
  | nil =>
    cases (path_done.mp path).2
    rfl
  | cons first ids ih =>
    obtain ⟨_, _, _, _, _, later, -, rfl, -, -, going⟩ := path_serviceAllTelling_cons path
    have different : first ≠ id := by
      rintro rfl
      exact out List.mem_cons_self
    simp only [if_neg different, List.nil_append]
    exact ih (fun later => out (List.mem_cons_of_mem first later)) going

/-- Each client's stream is continued in its own turn, and in no other. -/
theorem accounts_serviceAll (plays : handler.Plays script) (apart : Apart server.slots)
    (distinct : ids.Nodup) (member : id ∈ ids)
    (streams : (server.slots.get id).Streams socket before frames)
    (path : Path (serviceAllTelling handler script now ids server context) trace
      ((after, left), told)) :
    (after.slots.get id).Accounts socket (before ++ trace) (frames ++ told id) := by
  induction ids generalizing server context trace told before with
  | nil => cases member
  | cons first ids ih =>
    obtain ⟨turning, further, ended, queued, serviced, later, rfl, rfl, turned, slots, going⟩ :=
      path_serviceAllTelling_cons path
    obtain ⟨out, distinct⟩ := List.nodup_cons.mp distinct
    obtain ⟨events, noted⟩ := Turn.noting_of_telling turned
    obtain ⟨notes, others⟩ := noting_of_telling going
    have stays := Turn.stays_serviceNoting plays.keepsPhase noted
    obtain ⟨spared, quiet, -⟩ := path_serviceAllNoting plays.keepsPhase others
    by_cases same : first = id
    · subst same
      -- later turns are those of other clients, on other sockets
      have there : Mute socket further := by
        refine .of_untouched (quiet socket fun id member held => out ?_)
        have different : first ≠ id := fun same => out (same ▸ member)
        rw [slots, get_set_other different] at held
        rw [apart first id socket streams.held held]
        exact member
      have kept : after.slots.get first = ended.slot := by
        rw [(spared first out).1, slots, get_set_self]
      dsimp only
      rw [kept, if_pos rfl, told_of_not_mem out going, List.append_nil, ← List.append_assoc]
      rcases Turn.accounts_service plays streams turned with still | ⟨vacant, finished⟩
      · exact .inl (still.elsewhere there)
      · exact .inr ⟨vacant, finished.elsewhere there⟩
    · have own : (server.slots.get first).client.phase.socket ≠ some socket :=
        fun held => same (apart first id socket held streams.held)
      have here : Mute socket turning :=
        .of_untouched (Turn.untouched_serviceNoting plays.keepsPhase own noted)
      have between : Apart serviced.slots := by
        rw [slots]
        exact apart.set_within stays
      have member := (List.mem_cons.mp member).resolve_left (Ne.symm same)
      have streams : (serviced.slots.get id).Streams socket (before ++ turning) frames := by
        rw [slots, get_set_other same]
        exact streams.elsewhere here
      dsimp only
      rw [if_neg same, List.nil_append, ← List.append_assoc]
      exact ih between distinct member streams going

end Server

end BoardNet.WebSocket
