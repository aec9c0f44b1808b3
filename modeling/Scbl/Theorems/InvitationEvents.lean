import Scbl.Services.Misc
import Scbl.Theorems.InviteIds

/-!
# Where an invitation comes from

A user who is told of an invitation to a private room or a lobby party was invited by its sender, who named this user and hosted the
session; invitations to follow a party or back to a lobby come from the store. The session that the game of the sender published goes
with the invitation, as it was published last. The handlers wait many times, and everything else may happen in between.
-/

namespace Scbl.Storage

open Scbl.Lib Executions

/-! ## What the store sends by itself -/

/-- Every invitation is one that was there, or one to follow a party or back to a lobby. -/
def SentByStore (db db' : Database) : Prop :=
  ∀ i' ∈ db'.invites, (∃ i ∈ db.invites, i.SameInvite i') ∨ i'.kind = INVITE_KIND_PARTY_FOLLOW ∨ i'.kind = INVITE_KIND_LOBBY_RESTORE

instance sentByStore_preorder : IsPreorder Database SentByStore where
  refl _ i hi := .inl ⟨i, hi, .refl i⟩
  trans _ _ _ h h' i'' hi'' := by
    rcases h' i'' hi'' with ⟨i', hi', hs'⟩ | hkind
    · rcases h i' hi' with ⟨i, hi, hs⟩ | hkind
      · exact .inl ⟨i, hi, hs.trans hs'⟩
      · exact .inr (hs'.kind ▸ hkind)
    · exact .inr hkind

namespace SentByStore

variable {ρ : Type}

/-- Statements that insert no invitation and update none. -/
theorem moves_subset {f : Tables → Tables} (hf : ∀ t, (f t).invites ⊆ t.invites) :
    Moves SentByStore (statement f : StorageTx ρ Unit) :=
  moves_statement_of fun db _ h i hi => .inl ⟨i, hf db.toTables (h ▸ hi), .refl i⟩

/-- Updates of invitations. -/
theorem moves_update (p : Tables → InviteRow → Bool) {f : InviteRow → InviteRow} (hf : ∀ i, InviteRow.SameInvite i (f i)) :
    Moves SentByStore (statement (fun t => t.updateInvites (p t) f) : StorageTx ρ Unit) := by
  refine moves_statement_of fun db db' h i' hi' => .inl ?_
  rw [h] at hi'
  obtain ⟨i, hi, rfl⟩ := List.mem_map.mp hi'
  refine ⟨i, hi, ?_⟩
  split
  · exact hf i
  · exact .refl i

/-- Insertions of invitations of the store. -/
theorem moves_insert {now expiresAt : Time} {sender receiver kind sessionType sessionId : Nat} {partyId : Option Nat}
    (hkind : kind = INVITE_KIND_PARTY_FOLLOW ∨ kind = INVITE_KIND_LOBBY_RESTORE) :
    Moves SentByStore (statement (·.insertInvite now sender receiver kind sessionType sessionId partyId expiresAt) : StorageTx ρ Unit) := by
  refine moves_statement_of fun db db' h i' hi' => ?_
  rw [h] at hi'
  rcases List.mem_append.mp hi' with hi' | hi'
  · exact .inl ⟨i', hi', .refl i'⟩
  · rw [List.mem_singleton.mp hi']
    exact .inr hkind

theorem moves_ensurePartyForLeader (leaderId : Nat) : Moves SentByStore (ensurePartyForLeader leaderId : StorageTx ρ Nat) := by
  refine Moves.bind (Moves.bind (Moves.select _) fun found => ?_) fun partyId =>
    Moves.bind (moves_subset fun _ => List.Subset.refl _) fun _ => Moves.pure _
  cases found with
  | none =>
    exact Moves.bind (Moves.select _) fun _ => Moves.bind (moves_subset fun _ => List.Subset.refl _) fun _ => Moves.pure _
  | some partyId => exact Moves.pure _

theorem moves_queuePartyFollowInvite (now : Time) (leaderId sessionType sessionId partyId receiverId : Nat) :
    Moves SentByStore (queuePartyFollowInvite now leaderId sessionType sessionId partyId receiverId : StorageTx ρ Unit) := by
  refine Moves.bind (moves_subset fun _ => List.filter_subset_self _) fun _ => Moves.bind (Moves.select _) fun pending => ?_
  split
  · exact Moves.pure _
  · exact moves_insert (.inl rfl)

theorem moves_queueLobbyRestore (now : Time) (creatorId typeId lobbySessionId partyId queued receiverId : Nat) :
    Moves SentByStore (queueLobbyRestore now creatorId typeId lobbySessionId partyId queued receiverId : StorageTx ρ Nat) := by
  refine Moves.bind (Moves.select _) fun inLobby => ?_
  split
  · exact Moves.pure _
  · exact Moves.bind (moves_update (fun _ => _) fun _ => ⟨rfl, rfl, rfl⟩) fun _ => Moves.bind (moves_insert (.inr rfl)) fun _ => Moves.pure _

theorem moves_invitingParty (kind senderId : Nat) : Moves SentByStore (invitingParty kind senderId : StorageTx ρ (Option Nat)) := by
  unfold invitingParty
  split
  · exact Moves.bind (moves_ensurePartyForLeader senderId) fun _ => Moves.pure _
  · exact Moves.pure _

/-- Every stage of an operation but the invitation by hand. -/
theorem ownStages : OwnStages SentByStore where
  plain hf := moves_subset fun t => by rw [(hf.sameParties t).invites]; exact List.Subset.refl _
  deleteParticipants p := moves_subset fun t => (t.shrinks_deleteParticipants (p t)).invites.subset
  deleteUser _ := moves_subset fun _ => List.Subset.refl _
  leaveParty _ := Moves.bind (moves_subset fun _ => List.Subset.refl _) fun _ => moves_subset fun _ => List.Subset.refl _
  disband := Moves.bind (moves_subset fun _ => List.Subset.refl _) fun _ => moves_subset fun _ => List.Subset.refl _
  deleteInvites _ := moves_subset fun _ => List.filter_subset_self _
  consume _ p := moves_update p fun _ => ⟨rfl, rfl, rfl⟩
  deliver _ _ := moves_update (fun _ => _) fun _ => ⟨rfl, rfl, rfl⟩
  follow := moves_queuePartyFollowInvites_of moves_queuePartyFollowInvite
  restore now creatorId typeId lobbySessionId receivers := Moves.bind (moves_ensurePartyForLeader creatorId) fun partyId =>
    Moves.foldlM (moves_queueLobbyRestore now creatorId typeId lobbySessionId partyId) receivers 0

end SentByStore

open SentByStore in
/-- No other operation than the invitation by hand sends any other invitation. -/
theorem sentByStore_step (argon2 : Argon2) (db : Database) (call : Call)
    (hown : ∀ senderId receiverId kind sessionType sessionId, call.op ≠ .addInvite senderId receiverId kind sessionType sessionId) :
    SentByStore db (step argon2 db call).1 := by
  refine ownStages.step db argon2 call (fun _ _ _ _ => moves_subset fun _ => List.Subset.refl _) (fun userId typeId sessionId _ => ?_)
    (fun _ _ _ => moves_update (fun _ => _) fun _ => ⟨rfl, rfl, rfl⟩) fun _ _ _ _ _ hop => absurd hop (hown _ _ _ _ _)
  refine Moves.bind (Moves.select _) fun found => ?_
  cases found with
  | none => exact Moves.pure _
  | some invite =>
    exact Moves.bind (moves_subset fun _ => List.Subset.refl _) fun _ => moves_subset fun _ => List.Subset.refl _

/-! ## Invitations by hand -/

/-- The tables that tell which sessions are hosted are the same. -/
structure SameHosts (db db' : Database) : Prop where
  gameSessions : db'.gameSessions = db.gameSessions
  participants : db'.participants = db.participants
  stationUrls : db'.stationUrls = db.stationUrls

theorem SameHosts.of_executes {db db' : Database} (h : Executes PartyStatement db db') : SameHosts db db' := by
  have hrel := h.rel (R := fun t t' => t'.gameSessions = t.gameSessions ∧ t'.participants = t.participants ∧ t'.stationUrls = t.stationUrls)
    (fun _ => ⟨rfl, rfl, rfl⟩) (fun _ _ _ h h' => ⟨h'.1.trans h.1, h'.2.1.trans h.2.1, h'.2.2.trans h.2.2⟩)
    (fun f hf t => by cases hf <;> exact ⟨rfl, rfl, rfl⟩)
  exact ⟨hrel.1, hrel.2.1, hrel.2.2⟩

/-- Whoever hosts a session hosts it by the same tables. -/
theorem SameHosts.hostsSession {db db' : Database} (h : SameHosts db db') (senderId sessionType sessionId : Nat) :
    db'.hostsSession senderId sessionType sessionId = db.hostsSession senderId sessionType sessionId := by
  unfold Tables.hostsSession Tables.isParticipant Tables.hasEndpoint
  rw [h.gameSessions, h.participants, h.stationUrls]

/-- An invitation by hand changes nothing, or it is answered with its id and its sender hosts the session. -/
theorem addInvite_cases (now : Time) (senderId receiverId kind sessionType sessionId : Nat) (db : Database) :
    let added := addInvite now senderId receiverId kind sessionType sessionId db
    added.1 = db ∨ (∃ inviteId, added.2 = .ok (some inviteId)) ∧ db.hostsSession senderId sessionType sessionId = true ∧
      ∀ i' ∈ added.1.invites, (∃ i ∈ db.invites, i.SameInvite i') ∨ i'.kind = INVITE_KIND_PARTY_FOLLOW ∨
        i'.kind = INVITE_KIND_LOBBY_RESTORE ∨
        (i'.receiver = receiverId ∧ i'.identity = { sender := senderId, kind, sessionType, sessionId }) := by
  refine transaction_of_wp (P := fun added : Database × Except StorageError (Option Nat) => added.1 = db ∨
    (∃ inviteId, added.2 = .ok (some inviteId)) ∧ db.hostsSession senderId sessionType sessionId = true ∧
      ∀ i' ∈ added.1.invites, (∃ i ∈ db.invites, i.SameInvite i') ∨ i'.kind = INVITE_KIND_PARTY_FOLLOW ∨
        i'.kind = INVITE_KIND_LOBBY_RESTORE ∨
        (i'.receiver = receiverId ∧ i'.identity = { sender := senderId, kind, sessionType, sessionId })) ?_
  refine wp_weaken (show wp _ _ (fun _ => True) db from ?_) (fun _ _ h => h) fun e _ => by cases e <;> exact .inl rfl
  split
  · rw [wp_bind]
    refine wp_mono (wp_and (moves_invitingParty (W := PartyStatement) kind senderId db) (SentByStore.moves_invitingParty kind senderId db)) ?_
    rintro partyId db₁ ⟨hexecutes, hsent⟩
    rw [wp_bind]
    refine wp_statement fun db₂ h₂ => ?_
    rw [wp_bind]
    refine wp_statement fun db₃ h₃ => ?_
    have hinvites : db₃.invites ⊆ db₁.invites := by
      rw [h₃, Tables.deleteInvites, h₂]
      exact List.Subset.trans (List.filter_subset_self _) (List.filter_subset_self _)
    have hhosts : SameHosts db db₃ := by
      have hsame := SameHosts.of_executes hexecutes
      refine ⟨?_, ?_, ?_⟩
      · rw [h₃, Tables.deleteInvites, h₂]; exact hsame.gameSessions
      · rw [h₃, Tables.deleteInvites, h₂]; exact hsame.participants
      · rw [h₃, Tables.deleteInvites, h₂]; exact hsame.stationUrls
    rw [wp_bind, wp_query, hhosts.hostsSession]
    split
    · rename_i hhosted
      rw [wp_bind, wp_query, wp_bind]
      refine wp_statement fun db₄ h₄ => .inr ⟨⟨_, rfl⟩, hhosted, fun i' hi' => ?_⟩
      rw [h₄] at hi'
      rcases List.mem_append.mp hi' with hi' | hi'
      · rcases hsent i' (hinvites hi') with hsame | hkind
        · exact .inl hsame
        · exact .inr (hkind.imp_right .inl)
      · rw [List.mem_singleton.mp hi']
        exact .inr (.inr (.inr ⟨rfl, rfl⟩))
    · trivial
  · exact .inl rfl

/-- An invitation that is taken is one for the user, to a session that can still be joined. -/
theorem takeInvite_row {now : Time} {userId : Nat} {db : Database} {invite : Invite}
    (h : (takeInvite now userId db).2 = .ok (some invite)) :
    invite.receiver = userId ∧ db.validTarget invite.kind invite.sender invite.sessionType invite.sessionId = true ∧
      ∃ i ∈ db.invites, i.receiver = invite.receiver ∧ i.identity = invite.identity := by
  revert h
  refine transaction_of_wp (P := fun taken : Database × Except StorageError (Option Invite) => taken.2 = .ok (some invite) →
    invite.receiver = userId ∧ db.validTarget invite.kind invite.sender invite.sessionType invite.sessionId = true ∧
      ∃ i ∈ db.invites, i.receiver = invite.receiver ∧ i.identity = invite.identity) ?_
  rw [wp_bind]
  refine wp_statement_failing (fun e h => by cases h) fun db₁ h₁ => ?_
  rw [wp_bind]
  refine wp_statement_failing (fun e h => by cases h) fun db₂ h₂ => ?_
  rw [wp_bind, wp_query]
  generalize hfound : newest _ = found
  cases found with
  | none => exact fun h => by cases h
  | some row =>
    obtain ⟨hrow, hmatch⟩ := List.mem_filter.mp (mem_of_newest hfound)
    have hreceiver : row.receiver = userId := (of_decide_eq_true hmatch).1
    obtain ⟨i, hi, hvalid, hsame⟩ : ∃ i ∈ db.invites, db.validTarget i.kind i.sender i.sessionType i.sessionId = true ∧
        i.SameInvite row := by
      rw [h₂] at hrow
      obtain ⟨i, hi, rfl⟩ := List.mem_map.mp hrow
      rw [h₁] at hi
      obtain ⟨hi, hkept⟩ := List.mem_filter.mp hi
      refine ⟨i, hi, by simpa using (by simpa using hkept : _ ∧ _ ∧ _).2.2, ?_⟩
      split
      · exact ⟨rfl, rfl, rfl⟩
      · exact .refl i
    simp only [wp_bind]
    refine wp_statement_failing (fun e h => by cases h) fun db₃ _ => ?_
    rw [wp_pure]
    rintro ⟨⟩
    refine ⟨hreceiver, ?_, i, hi, hsame.receiver, hsame.identity⟩
    rw [hsame.kind, hsame.sender, hsame.sessionType, hsame.sessionId] at hvalid
    exact hvalid

end Scbl.Storage

namespace Scbl.Services.Api

open Scbl.Lib Scbl.Storage

/-! ## What was done before -/

/-- What happened to the services so far. -/
abbrev History : Type := List (Transition MiscState MiscInput MiscOutput)

/-- A step of the services. -/
abbrev MiscTransition : Type := Transition MiscState MiscInput MiscOutput

/-- A user makes a call, under a number. -/
structure Calls (call userId : Nat) (request : Request) (t : MiscTransition) : Prop where
  number : t.before.calls = call
  request : ∃ metadata, t.input.event = .call metadata request ∧ authenticatedUserId metadata = .ok userId

/-- `invite` finds the user that it was told to invite. -/
structure Finds (call : Nat) (receiver : Text) (receiverId : Nat) (t : MiscTransition) : Prop where
  resumes : t.input.event = .resume call
  found : findUserIdByUbiId receiver t.before.db.toTables = some receiverId

/-- `invite` chooses the newest session of the sender that can be invited into. -/
structure Chooses (call sender : Nat) (session : Storage.GameSession) (kind : Nat) (t : MiscTransition) : Prop where
  resumes : t.input.event = .resume call
  chosen : ∃ hostSessions, findHostSessions sender t.before.db.toTables = .ok hostSessions ∧ inviteTarget hostSessions = some (session, kind)

/-- `invite` answers that the user was invited into a session that the sender still hosts. -/
structure Binds (call sender receiverId kind : Nat) (session : Storage.GameSession) (t : MiscTransition) : Prop where
  resumes : t.input.event = .resume call
  hosts : t.before.db.hostsSession sender session.sessionType session.sessionId = true
  answer : t.output = .answered call (.inviteInto sender receiverId session kind) (.ok .invite)

/-- A sender has invited a receiver into a session: one call, step by step. -/
def Invited (past : History) (receiver : Nat) (identity : InviteIdentity) : Prop :=
  ∃ call receiverText session c f h b, List.Sublist [c, f, h, b] past ∧ Calls call identity.sender (.invite receiverText) c ∧
    Finds call receiverText receiver f ∧ receiver ≠ identity.sender ∧ Chooses call identity.sender session identity.kind h ∧
    Binds call identity.sender receiver identity.kind session b ∧ session.sessionType = identity.sessionType ∧
    session.sessionId = identity.sessionId

/-- An invitation by hand was sent by its sender, the others by the store. -/
def Sent (past : History) (receiver : Nat) (identity : InviteIdentity) : Prop :=
  Invited past receiver identity ∨ identity.kind = INVITE_KIND_PARTY_FOLLOW ∨ identity.kind = INVITE_KIND_LOBBY_RESTORE

/-- `event` takes an invitation that was sent to its user before, and whose session can still be joined. -/
structure Delivers (before : History) (call userId : Nat) (invite : Invite) (t : MiscTransition) : Prop where
  called : ∃ c ∈ before, Calls call userId .event c
  resumes : t.input.event = .resume call
  taken : (takeInvite t.input.now userId t.before.db).2 = .ok (some invite)
  receiver : invite.receiver = userId
  target : t.before.db.validTarget invite.kind invite.sender invite.sessionType invite.sessionId = true
  sent : Sent before userId invite.identity

/-- An invitation was taken by the handler of a call. -/
def Delivered (past : History) (call userId : Nat) (invite : Invite) : Prop :=
  ∃ before t after, past = before ++ t :: after ∧ Delivers before call userId invite t

/-- What a user has published, as the answers tell. -/
def publishedAfter (userId : Nat) (published : Option UplayGameSession) (t : MiscTransition) : Option UplayGameSession :=
  match t.output with
  | .answered _ (.setGameSession user session) _ => if user = userId then some session else published
  | .answered _ (.clearGameSession user) _ => if user = userId then none else published
  | _ => published

/-- What a user published last and has not taken back. -/
def published (userId : Nat) (past : History) : Option UplayGameSession := past.foldl (publishedAfter userId) none

/-- What an invitation event says of the invitation that was taken. -/
structure Tells (config : DebugConfig) (past : History) (t : MiscTransition) (invite : Invite) (event : InviteEvent) : Prop where
  id : event.id = invite.id
  kind : event.kind = invite.kind
  sender : ∃ f ∈ past ++ [t], ∃ user, findUserById invite.sender f.before.db.toTables = .ok (some user) ∧
    event.sender = some { id := user.ubiId, username := user.username, ips := [] }
  forceJoin : event.forceJoin = (config.forceJoins || inviteForcesJoin invite.kind)
  gameSession : event.gameSession =
    if inviteRequiresUplayGameSession invite.kind then
      projectInviteUplayGameSession invite.kind invite.sessionId (published invite.sender past)
    else none
  data : ∀ session ∈ event.gameSession, 0 < session.data.length ∧ session.data.length ≤ 16 * 1024

namespace InvitationEvents

/-- What the handler that waits has been through. -/
def Reached (past : History) (call : Nat) : Task → Prop
  | .invite sender receiver => ∃ c ∈ past, Calls call sender (.invite receiver) c
  | .inviteTo sender receiverId => receiverId ≠ sender ∧
    ∃ receiver c f, List.Sublist [c, f] past ∧ Calls call sender (.invite receiver) c ∧ Finds call receiver receiverId f
  | .inviteInto sender receiverId session kind => receiverId ≠ sender ∧
    ∃ receiver c f h, List.Sublist [c, f, h] past ∧ Calls call sender (.invite receiver) c ∧ Finds call receiver receiverId f ∧
      Chooses call sender session kind h
  | .event userId => ∃ c ∈ past, Calls call userId .event c
  | .eventOf userId invite => Delivered past call userId invite
  | .eventFrom userId invite sender => Delivered past call userId invite ∧ inviteRequiresUplayGameSession invite.kind = true ∧
    ∃ f ∈ past, findUserById invite.sender f.before.db.toTables = .ok (some sender)
  | .setGameSession _ session => validateUplayGameSession session.data = true
  | .clearGameSession _ => True

variable {past : History} {t : MiscTransition} {call : Nat}

/-- A step that was made before one more step was made before both. -/
theorem sublist_snoc {l : History} (h : l.Sublist past) (t : MiscTransition) : l.Sublist (past ++ [t]) := h.trans (List.sublist_append_left _ _)

theorem sent_append {receiver : Nat} {identity : InviteIdentity} (h : Sent past receiver identity) (t : MiscTransition) :
    Sent (past ++ [t]) receiver identity := by
  rcases h with ⟨call, receiverText, session, c, f, h, b, hsub, hrest⟩ | hkind
  · exact .inl ⟨call, receiverText, session, c, f, h, b, sublist_snoc hsub t, hrest⟩
  · exact .inr hkind

theorem delivered_append {userId : Nat} {invite : Invite} (h : Delivered past call userId invite) (t : MiscTransition) :
    Delivered (past ++ [t]) call userId invite := by
  obtain ⟨before, d, after, rfl, hd⟩ := h
  exact ⟨before, d, after ++ [t], by rw [List.append_assoc, List.cons_append], hd⟩

/-- What a handler has been through stays. -/
theorem Reached.append {task : Task} (h : Reached past call task) (t : MiscTransition) : Reached (past ++ [t]) call task := by
  cases task with
  | invite sender receiver =>
    obtain ⟨c, hc, hcalls⟩ := h
    exact ⟨c, List.mem_append_left _ hc, hcalls⟩
  | inviteTo sender receiverId =>
    obtain ⟨hother, receiver, c, f, hsub, hrest⟩ := h
    exact ⟨hother, receiver, c, f, sublist_snoc hsub t, hrest⟩
  | inviteInto sender receiverId session kind =>
    obtain ⟨hother, receiver, c, f, h, hsub, hrest⟩ := h
    exact ⟨hother, receiver, c, f, h, sublist_snoc hsub t, hrest⟩
  | event userId =>
    obtain ⟨c, hc, hcalls⟩ := h
    exact ⟨c, List.mem_append_left _ hc, hcalls⟩
  | eventOf userId invite => exact delivered_append h t
  | eventFrom userId invite sender =>
    obtain ⟨hdelivered, hrequires, f, hf, hfound⟩ := h
    exact ⟨delivered_append hdelivered t, hrequires, f, List.mem_append_left _ hf, hfound⟩
  | setGameSession userId session => exact h
  | clearGameSession userId => trivial

theorem published_append (userId : Nat) (past : History) (t : MiscTransition) :
    published userId (past ++ [t]) = publishedAfter userId (published userId past) t := by
  rw [published, List.foldl_append]
  rfl

/-- What is known of the services after what happened so far. -/
structure Inv (past : History) (state : MiscState) : Prop where
  tasks : ∀ call task, state.tasks.lookup call = some task → Reached past call task
  sent : ∀ i ∈ state.db.invites, Sent past i.receiver i.identity
  published : ∀ userId, state.uplayGameSessions.lookup userId = published userId past
  valid : ∀ userId session, state.uplayGameSessions.lookup userId = some session → validateUplayGameSession session.data = true

/-! ## One step -/

variable {argon2 : Argon2} {config : DebugConfig} {state state' : MiscState} {now : Time} {task task' : Task}
  {response : Except Refusal Response}

/-- The step that the services make. -/
abbrev stepOf (argon2 : Argon2) (config : DebugConfig) (state : MiscState) (input : MiscInput) : MiscTransition :=
  ⟨state, input, (miscStep argon2 config state input).2, (miscStep argon2 config state input).1⟩

/-- The other handlers wait on while one goes on. -/
theorem resume_tasks (config : DebugConfig) (now : Time) (state : MiscState) (task : Task) :
    (resume config now state task).1.tasks = state.tasks := by
  cases task <;> rfl

theorem step_waits (argon2 : Argon2) (htask : state.tasks.lookup call = some task) (hresume : resume config now state task = (state', .waits task')) :
    miscStep argon2 config state { now, event := .resume call } =
      ({ state' with tasks := state'.tasks.insert call task' }, .nothing) := by
  simp only [miscStep, htask, hresume]

theorem step_answers (argon2 : Argon2) (htask : state.tasks.lookup call = some task)
    (hresume : resume config now state task = (state', .answers response)) :
    miscStep argon2 config state { now, event := .resume call } =
      ({ state' with tasks := state'.tasks.erase call }, .answered call task response) := by
  simp only [miscStep, htask, hresume]

/-- What is known stays known after a step that lets only what was reached wait, leaves only invitations that were sent, and changes what
is published as its answer tells. -/
theorem Inv.after (h : Inv past state)
    (htasks : ∀ call task, t.after.tasks.lookup call = some task → state.tasks.lookup call = some task ∨ Reached (past ++ [t]) call task)
    (hsent : ∀ i' ∈ t.after.db.invites, (∃ i ∈ state.db.invites, i.SameInvite i') ∨ Sent (past ++ [t]) i'.receiver i'.identity)
    (hpublished : ∀ userId, t.after.uplayGameSessions.lookup userId = publishedAfter userId (state.uplayGameSessions.lookup userId) t)
    (hvalid : ∀ userId session, t.after.uplayGameSessions.lookup userId = some session →
      state.uplayGameSessions.lookup userId = some session ∨ validateUplayGameSession session.data = true) :
    Inv (past ++ [t]) t.after where
  tasks call task htask := by
    rcases htasks call task htask with hbefore | hreached
    · exact (h.tasks call task hbefore).append t
    · exact hreached
  sent i' hi' := by
    rcases hsent i' hi' with ⟨i, hi, hsame⟩ | hsent
    · rw [← hsame.receiver, ← hsame.identity]
      exact sent_append (h.sent i hi) t
    · exact hsent
  published userId := by rw [published_append, ← h.published, hpublished]
  valid userId session hsession := by
    rcases hvalid userId session hsession with hbefore | hnow
    · exact h.valid userId session hbefore
    · exact hnow

/-- A handler waits again. -/
theorem Inv.waits (h : Inv past state) (htask : state.tasks.lookup call = some task)
    (hresume : resume config now state task = (state', .waits task')) (hsent : SentByStore state.db state'.db)
    (hpublished : state'.uplayGameSessions = state.uplayGameSessions)
    (hreached : Reached (past ++ [stepOf argon2 config state { now, event := .resume call }]) call task') :
    Inv (past ++ [stepOf argon2 config state { now, event := .resume call }])
      (miscStep argon2 config state { now, event := .resume call }).1 := by
  have hafter := congrArg Prod.fst (step_waits argon2 htask hresume)
  have houtput := congrArg Prod.snd (step_waits argon2 htask hresume)
  have hothers : state'.tasks = state.tasks := by rw [← resume_tasks config now state task, hresume]
  refine h.after (t := stepOf argon2 config state { now, event := .resume call }) ?_ ?_ ?_ ?_
  · intro call' task'' htask'
    rw [stepOf, hafter] at htask'
    rcases lookup_insert_eq_some htask' with ⟨rfl, rfl⟩ | hbefore
    · exact .inr hreached
    · exact .inl (hothers ▸ hbefore)
  · intro i' hi'
    rw [stepOf, hafter] at hi'
    rcases hsent i' hi' with hsame | hkind
    · exact .inl hsame
    · exact .inr (.inr hkind)
  · intro userId
    rw [publishedAfter, stepOf, houtput, hafter, hpublished]
  · intro userId session hsession
    rw [stepOf, hafter, hpublished] at hsession
    exact .inl hsession

/-- A handler answers. -/
theorem Inv.answers (h : Inv past state) (htask : state.tasks.lookup call = some task)
    (hresume : resume config now state task = (state', .answers response))
    (hsent : ∀ i' ∈ state'.db.invites, (∃ i ∈ state.db.invites, i.SameInvite i') ∨
      Sent (past ++ [stepOf argon2 config state { now, event := .resume call }]) i'.receiver i'.identity)
    (hpublished : ∀ userId, state'.uplayGameSessions.lookup userId =
      publishedAfter userId (state.uplayGameSessions.lookup userId) (stepOf argon2 config state { now, event := .resume call }))
    (hvalid : ∀ userId session, state'.uplayGameSessions.lookup userId = some session →
      state.uplayGameSessions.lookup userId = some session ∨ validateUplayGameSession session.data = true) :
    Inv (past ++ [stepOf argon2 config state { now, event := .resume call }])
      (miscStep argon2 config state { now, event := .resume call }).1 := by
  have hafter := congrArg Prod.fst (step_answers argon2 htask hresume)
  have hothers : state'.tasks = state.tasks := by rw [← resume_tasks config now state task, hresume]
  refine h.after (t := stepOf argon2 config state { now, event := .resume call }) ?_ ?_ ?_ ?_
  · intro call' task' htask'
    rw [stepOf, hafter] at htask'
    exact .inl (hothers ▸ lookup_of_erase htask')
  · intro i' hi'
    rw [stepOf, hafter] at hi'
    exact hsent i' hi'
  · intro userId
    rw [← hpublished userId]
    exact congrArg (fun after => after.uplayGameSessions.lookup userId) hafter
  · intro userId session hsession
    rw [stepOf, hafter] at hsession
    exact hvalid userId session hsession

/-- A handler answers that left the store and what is published as they were. -/
theorem Inv.answers_only (h : Inv past state) (htask : state.tasks.lookup call = some task)
    (hresume : resume config now state task = (state, .answers response))
    (hother : ∀ userId published, publishedAfter userId published (stepOf argon2 config state { now, event := .resume call }) = published) :
    Inv (past ++ [stepOf argon2 config state { now, event := .resume call }])
      (miscStep argon2 config state { now, event := .resume call }).1 :=
  h.answers htask hresume (fun i hi => .inl ⟨i, hi, .refl i⟩) (fun userId => (hother userId _).symm) fun _ _ hsession => .inl hsession

/-- A handler that begins was called by its user. -/
theorem reached_handle {metadata : Metadata} {request : Request} (h : handle metadata request = .ok task) (hnumber : t.before.calls = call)
    (hcall : t.input.event = .call metadata request) : Reached (past ++ [t]) call task := by
  have hlast : t ∈ past ++ [t] := List.mem_append_right _ List.mem_cons_self
  unfold handle at h
  cases huser : authenticatedUserId metadata with
  | error status => rw [huser] at h; cases h
  | ok userId =>
    rw [huser] at h
    cases request with
    | invite id =>
      cases h
      exact ⟨t, hlast, hnumber, metadata, hcall, huser⟩
    | event =>
      cases h
      exact ⟨t, hlast, hnumber, metadata, hcall, huser⟩
    | setGameSession id data flags inviteOnly =>
      simp only [] at h
      split at h
      · rename_i hvalid
        cases h
        exact hvalid
      · cases h
    | clearGameSession =>
      cases h
      trivial

/-- A call comes in. -/
theorem Inv.called (h : Inv past state) (metadata : Metadata) (request : Request) :
    Inv (past ++ [stepOf argon2 config state { now, event := .call metadata request }])
      (miscStep argon2 config state { now, event := .call metadata request }).1 := by
  cases hhandle : handle metadata request with
  | error refusal =>
    have hstep : miscStep argon2 config state { now, event := .call metadata request } = (state, .refused refusal) := by
      simp only [miscStep, hhandle]
    refine h.after (t := stepOf argon2 config state { now, event := .call metadata request }) ?_ ?_ ?_ ?_ <;> rw [stepOf, hstep]
    · exact fun _ _ htask => .inl htask
    · exact fun i hi => .inl ⟨i, hi, .refl i⟩
    · exact fun _ => rfl
    · exact fun _ _ hsession => .inl hsession
  | ok task =>
    have hstep : miscStep argon2 config state { now, event := .call metadata request } =
        ({ state with tasks := state.tasks.insert state.calls task, calls := state.calls + 1 }, .nothing) := by
      simp only [miscStep, hhandle]
    refine h.after (t := stepOf argon2 config state { now, event := .call metadata request }) ?_ ?_ ?_ ?_ <;> rw [stepOf, hstep]
    · intro call task' htask
      rcases lookup_insert_eq_some htask with ⟨rfl, rfl⟩ | hbefore
      · exact .inr (reached_handle hhandle rfl rfl)
      · exact .inl hbefore
    · exact fun i hi => .inl ⟨i, hi, .refl i⟩
    · exact fun _ => rfl
    · exact fun _ _ hsession => .inl hsession

/-- The store executes an operation of the others. -/
theorem Inv.stored (h : Inv past state) (op : StorageOp) (own : addsInvite op = false) :
    Inv (past ++ [stepOf argon2 config state { now, event := .store op own }])
      (miscStep argon2 config state { now, event := .store op own }).1 := by
  have hsent : SentByStore state.db (Storage.step argon2 state.db { now, op }).1 := by
    refine sentByStore_step argon2 state.db { now, op } fun _ _ _ _ _ hop => ?_
    rw [show op = _ from hop] at own
    cases own
  refine h.after (t := stepOf argon2 config state { now, event := .store op own }) ?_ ?_ ?_ ?_
  · exact fun _ _ htask => .inl htask
  · intro i' hi'
    rcases hsent i' hi' with hsame | hkind
    · exact .inl hsame
    · exact .inr (.inr hkind)
  · exact fun _ => rfl
  · exact fun _ _ hsession => .inl hsession

/-- The step at hand comes behind the steps before it. -/
theorem sublist_concat {l : History} (h : l.Sublist past) (t : MiscTransition) : (l ++ [t]).Sublist (past ++ [t]) :=
  h.append (.refl _)

/-- `invite` goes on. -/
theorem Inv.inviting {sender : Nat} {receiver : Text} (h : Inv past state)
    (htask : state.tasks.lookup call = some (.invite sender receiver)) :
    Inv (past ++ [stepOf argon2 config state { now, event := .resume call }])
      (miscStep argon2 config state { now, event := .resume call }).1 := by
  obtain ⟨c, hc, hcalls⟩ := h.tasks call _ htask
  have hresume : resume config now state (.invite sender receiver) =
      (state, inviteReceiver sender (findUserIdByUbiId receiver state.db.toTables)) := rfl
  cases hfound : findUserIdByUbiId receiver state.db.toTables with
  | none =>
    rw [hfound] at hresume
    exact h.answers_only htask hresume fun userId published => by rw [publishedAfter, stepOf, step_answers argon2 htask hresume]
  | some receiverId =>
    rw [hfound, inviteReceiver] at hresume
    split at hresume
    · exact h.answers_only htask hresume fun userId published => by rw [publishedAfter, stepOf, step_answers argon2 htask hresume]
    · rename_i hother
      exact h.waits htask hresume (refl_of SentByStore _) rfl
        ⟨hother, receiver, c, _, sublist_concat (List.singleton_sublist.mpr hc) _, hcalls, rfl, hfound⟩

/-- `invite` goes on with the receiver. -/
theorem Inv.invitingTo {sender receiverId : Nat} (h : Inv past state)
    (htask : state.tasks.lookup call = some (.inviteTo sender receiverId)) :
    Inv (past ++ [stepOf argon2 config state { now, event := .resume call }])
      (miscStep argon2 config state { now, event := .resume call }).1 := by
  obtain ⟨hother, receiver, c, f, hsub, hcalls, hfinds⟩ := h.tasks call _ htask
  have hresume : resume config now state (.inviteTo sender receiverId) =
      (state, inviteSession sender receiverId (findHostSessions sender state.db.toTables)) := rfl
  cases hfound : findHostSessions sender state.db.toTables with
  | error e =>
    rw [hfound] at hresume
    exact h.answers_only htask hresume fun userId published => by rw [publishedAfter, stepOf, step_answers argon2 htask hresume]
  | ok hostSessions =>
    rw [hfound, inviteSession] at hresume
    cases htarget : inviteTarget hostSessions with
    | none =>
      rw [htarget] at hresume
      exact h.answers_only htask hresume fun userId published => by rw [publishedAfter, stepOf, step_answers argon2 htask hresume]
    | some target =>
      obtain ⟨session, kind⟩ := target
      rw [htarget] at hresume
      exact h.waits htask hresume (refl_of SentByStore _) rfl
        ⟨hother, receiver, c, f, _, sublist_concat hsub _, hcalls, hfinds, rfl, hostSessions, hfound, htarget⟩

/-- `invite` adds the invitation. -/
theorem Inv.invitingInto {sender receiverId kind : Nat} {session : Storage.GameSession} (h : Inv past state)
    (htask : state.tasks.lookup call = some (.inviteInto sender receiverId session kind)) :
    Inv (past ++ [stepOf argon2 config state { now, event := .resume call }])
      (miscStep argon2 config state { now, event := .resume call }).1 := by
  obtain ⟨hother, receiver, c, f, g, hsub, hcalls, hfinds, hchooses⟩ := h.tasks call _ htask
  have hadd := addInvite_cases now sender receiverId kind session.sessionType session.sessionId state.db
  generalize hadded : addInvite now sender receiverId kind session.sessionType session.sessionId state.db = added at hadd
  have hresume : resume config now state (.inviteInto sender receiverId session kind) =
      ({ state with db := added.1 }, inviteAdded added.2) := by
    rw [← hadded]
    rfl
  obtain ⟨response, hresponse⟩ : ∃ response, inviteAdded added.2 = .answers response := by
    unfold inviteAdded refuse
    split <;> exact ⟨_, rfl⟩
  rw [hresponse] at hresume
  have houtput := congrArg Prod.snd (step_answers argon2 htask hresume)
  refine h.answers htask hresume (fun i' hi' => ?_) (fun userId => by rw [publishedAfter, stepOf, houtput]) fun _ _ hsession => .inl hsession
  rcases hadd with hsame | ⟨⟨inviteId, hanswer⟩, hhosts, hrows⟩
  · exact .inl ⟨i', hsame ▸ hi', .refl i'⟩
  · rcases hrows i' hi' with hsame | hkind | hkind | ⟨hreceiver, hidentity⟩
    · exact .inl hsame
    · exact .inr (.inr (.inl hkind))
    · exact .inr (.inr (.inr hkind))
    · rw [hreceiver, hidentity]
      rw [hanswer] at hresponse
      cases hresponse
      exact .inr (.inl ⟨call, receiver, session, c, f, g, _, sublist_concat hsub _, hcalls, hfinds, hother, hchooses,
        ⟨rfl, hhosts, houtput⟩, rfl, rfl⟩)

/-- `event` takes an invitation. -/
theorem Inv.telling {userId : Nat} (h : Inv past state) (htask : state.tasks.lookup call = some (.event userId)) :
    Inv (past ++ [stepOf argon2 config state { now, event := .resume call }])
      (miscStep argon2 config state { now, event := .resume call }).1 := by
  have hcalled : ∃ c ∈ past, Calls call userId .event c := h.tasks call _ htask
  have hsent : SentByStore state.db (takeInvite now userId state.db).1 := SentByStore.ownStages.takeInvite state.db now userId
  have hresume : resume config now state (.event userId) =
      ({ state with db := (takeInvite now userId state.db).1 }, eventTaken userId (takeInvite now userId state.db).2) := rfl
  have hanswers : ∀ {response}, eventTaken userId (takeInvite now userId state.db).2 = .answers response →
      Inv (past ++ [stepOf argon2 config state { now, event := .resume call }])
        (miscStep argon2 config state { now, event := .resume call }).1 := by
    intro response hresponse
    rw [hresponse] at hresume
    refine h.answers htask hresume (fun i' hi' => (hsent i' hi').imp_right .inr) (fun userId => ?_) fun _ _ hsession => .inl hsession
    rw [publishedAfter, stepOf, step_answers argon2 htask hresume]
  cases htaken : (takeInvite now userId state.db).2 with
  | error e => exact hanswers (by rw [htaken]; rfl)
  | ok found =>
    cases found with
    | none => exact hanswers (by rw [htaken]; rfl)
    | some invite =>
      rw [htaken] at hresume
      obtain ⟨hreceiver, htarget, i, hi, hto, hidentity⟩ := takeInvite_row htaken
      refine h.waits htask hresume hsent rfl ⟨past, _, [], rfl, hcalled, rfl, htaken, hreceiver, htarget, ?_⟩
      rw [← hreceiver, ← hto, ← hidentity]
      exact h.sent i hi

/-- `event` goes on with the invitation. -/
theorem Inv.tellingOf {userId : Nat} {invite : Invite} (h : Inv past state)
    (htask : state.tasks.lookup call = some (.eventOf userId invite)) :
    Inv (past ++ [stepOf argon2 config state { now, event := .resume call }])
      (miscStep argon2 config state { now, event := .resume call }).1 := by
  have hdelivered : Delivered past call userId invite := h.tasks call _ htask
  have hresume : resume config now state (.eventOf userId invite) =
      (state, eventSender config userId invite (findUserById invite.sender state.db.toTables)) := rfl
  have hanswers : ∀ {response}, eventSender config userId invite (findUserById invite.sender state.db.toTables) = .answers response →
      Inv (past ++ [stepOf argon2 config state { now, event := .resume call }])
        (miscStep argon2 config state { now, event := .resume call }).1 := by
    intro response hresponse
    rw [hresponse] at hresume
    exact h.answers_only htask hresume fun userId published => by rw [publishedAfter, stepOf, step_answers argon2 htask hresume]
  cases hfound : findUserById invite.sender state.db.toTables with
  | error e => exact hanswers (by rw [hfound]; rfl)
  | ok found =>
    cases found with
    | none => exact hanswers (by rw [hfound]; rfl)
    | some sender =>
      cases hrequires : inviteRequiresUplayGameSession invite.kind with
      | false => exact hanswers (by rw [hfound]; simp only [eventSender, hrequires]; rfl)
      | true =>
        have hwaits : eventSender config userId invite (findUserById invite.sender state.db.toTables) =
            .waits (.eventFrom userId invite sender) := by
          rw [hfound]
          exact if_pos hrequires
        rw [hwaits] at hresume
        exact h.waits htask hresume (refl_of SentByStore _) rfl
          ⟨delivered_append hdelivered _, hrequires, _, List.mem_append_right _ List.mem_cons_self, hfound⟩

/-- `set_game_session` publishes a session. -/
theorem Inv.publishing {userId : Nat} {session : UplayGameSession} (h : Inv past state)
    (htask : state.tasks.lookup call = some (.setGameSession userId session)) :
    Inv (past ++ [stepOf argon2 config state { now, event := .resume call }])
      (miscStep argon2 config state { now, event := .resume call }).1 := by
  have hvalid : validateUplayGameSession session.data = true := h.tasks call _ htask
  have hresume : resume config now state (.setGameSession userId session) =
      ({ state with uplayGameSessions := state.uplayGameSessions.insert userId session }, .answers (.ok .setGameSession)) := rfl
  have houtput := congrArg Prod.snd (step_answers argon2 htask hresume)
  refine h.answers htask hresume (fun i hi => .inl ⟨i, hi, .refl i⟩) (fun user => ?_) fun user session' hsession => ?_
  · rw [publishedAfter, stepOf, houtput]
    simp only []
    split
    · rename_i heq
      rw [← heq, AList.lookup_insert]
    · rename_i hne
      rw [AList.lookup_insert_ne (Ne.symm hne)]
  · rcases lookup_insert_eq_some hsession with ⟨-, rfl⟩ | hbefore
    · exact .inr hvalid
    · exact .inl hbefore

/-- `clear_game_session` takes it back. -/
theorem Inv.clearing {userId : Nat} (h : Inv past state) (htask : state.tasks.lookup call = some (.clearGameSession userId)) :
    Inv (past ++ [stepOf argon2 config state { now, event := .resume call }])
      (miscStep argon2 config state { now, event := .resume call }).1 := by
  have hresume : resume config now state (.clearGameSession userId) =
      ({ state with uplayGameSessions := state.uplayGameSessions.erase userId }, .answers (.ok .clearGameSession)) := rfl
  have houtput := congrArg Prod.snd (step_answers argon2 htask hresume)
  refine h.answers htask hresume (fun i hi => .inl ⟨i, hi, .refl i⟩) (fun user => ?_) fun user session' hsession =>
    .inl (lookup_of_erase hsession)
  rw [publishedAfter, stepOf, houtput]
  simp only []
  split
  · rename_i heq
    rw [← heq, AList.lookup_erase]
  · rename_i hne
    rw [AList.lookup_erase_ne (Ne.symm hne)]

/-- Every step of the services keeps what is known. -/
theorem Inv.step (h : Inv past state) (input : MiscInput) :
    Inv (past ++ [stepOf argon2 config state input]) (miscStep argon2 config state input).1 := by
  obtain ⟨now, event⟩ := input
  cases event with
  | call metadata request => exact h.called metadata request
  | store op own => exact h.stored op own
  | resume call =>
    cases htask : state.tasks.lookup call with
    | none =>
      have hstep : miscStep argon2 config state { now, event := .resume call } = (state, .nothing) := by
        simp only [miscStep, htask]
      refine h.after (t := stepOf argon2 config state { now, event := .resume call }) ?_ ?_ ?_ ?_ <;> rw [stepOf, hstep]
      · exact fun _ _ htask => .inl htask
      · exact fun i hi => .inl ⟨i, hi, .refl i⟩
      · exact fun _ => rfl
      · exact fun _ _ hsession => .inl hsession
    | some task =>
      cases task with
      | invite sender receiver => exact h.inviting htask
      | inviteTo sender receiverId => exact h.invitingTo htask
      | inviteInto sender receiverId session kind => exact h.invitingInto htask
      | event userId => exact h.telling htask
      | eventOf userId invite => exact h.tellingOf htask
      | eventFrom userId invite sender =>
        have hresume : resume config now state (.eventFrom userId invite sender) = (state, .answers _) := rfl
        exact h.answers_only htask hresume fun userId published => by rw [publishedAfter, stepOf, step_answers argon2 htask hresume]
      | setGameSession userId session => exact h.publishing htask
      | clearGameSession userId => exact h.clearing htask

/-- A projection keeps the data of the session. -/
theorem data_of_project {kind sessionId : Nat} {published : Option UplayGameSession} {session : UplayGameSession}
    (h : projectInviteUplayGameSession kind sessionId published = some session) :
    ∃ session', published = some session' ∧ session.data = session'.data := by
  obtain ⟨session', hpublished, hsession⟩ := Option.map_eq_some_iff.mp h
  refine ⟨session', hpublished, ?_⟩
  rw [← hsession]
  split <;> rfl

/-- The handler that told of an invitation tells what was taken, and of a session as it is published. -/
theorem tells_of_inv (h : Inv past state) (htask : state.tasks.lookup call = some task) {event : InviteEvent}
    (hresume : (resume config now state task).2 = .answers (.ok (.event (some event)))) (ht : t.before = state) :
    ∃ userId invite, Delivered past call userId invite ∧ Tells config past t invite event := by
  have hreached := h.tasks call task htask
  cases task with
  | invite sender receiver =>
    simp only [resume, inviteReceiver, refuse] at hresume
    split at hresume
    · cases hresume
    · split at hresume <;> cases hresume
  | inviteTo sender receiverId =>
    simp only [resume, inviteSession, refuse] at hresume
    split at hresume
    · cases hresume
    · split at hresume <;> cases hresume
  | inviteInto sender receiverId session kind =>
    simp only [resume, inviteAdded, refuse] at hresume
    split at hresume <;> cases hresume
  | event userId =>
    simp only [resume, eventTaken] at hresume
    split at hresume <;> cases hresume
  | setGameSession userId session => cases hresume
  | clearGameSession userId => cases hresume
  | eventOf userId invite =>
    simp only [resume, eventSender, refuse] at hresume
    split at hresume
    · cases hresume
    · cases hresume
    · rename_i sender hfound
      split at hresume
      · cases hresume
      · rename_i hrequires
        cases hresume
        refine ⟨userId, invite, hreached, rfl, rfl, ⟨t, List.mem_append_right _ List.mem_cons_self, sender, ?_, rfl⟩, rfl, ?_, ?_⟩
        · rw [ht]
          exact hfound
        · rw [if_neg hrequires]
          rfl
        · exact fun session hsession => by cases hsession
  | eventFrom userId invite sender =>
    obtain ⟨hdelivered, hrequires, f, hf, hfound⟩ := hreached
    cases hresume
    refine ⟨userId, invite, hdelivered, rfl, rfl, ⟨f, List.mem_append_left _ hf, sender, hfound, rfl⟩, rfl, ?_, fun session hsession => ?_⟩
    · rw [if_pos hrequires, ← h.published]
    · obtain ⟨session', hpublished, hdata⟩ := data_of_project hsession
      have hvalid := of_decide_eq_true (h.valid _ _ hpublished)
      rw [hdata]
      exact ⟨List.length_pos_iff.mpr hvalid.1, hvalid.2⟩

/-- Nothing was published, sent or begun. -/
structure Idle (state : MiscState) : Prop where
  invites : state.db.invites = []
  uplayGameSessions : state.uplayGameSessions = ∅
  tasks : state.tasks = ∅

theorem inv_idle (h : Idle state) : Inv [] state where
  tasks call task htask := by rw [h.tasks, AList.lookup_empty] at htask; cases htask
  sent i hi := by rw [h.invites] at hi; cases hi
  published userId := by rw [h.uplayGameSessions, AList.lookup_empty]; rfl
  valid userId session hsession := by rw [h.uplayGameSessions, AList.lookup_empty] at hsession; cases hsession

end InvitationEvents

open InvitationEvents

/-- When the services begin with nothing published, sent or begun, whatever calls come in and in whatever order their handlers and the
other operations of the store go on: an invitation that a call of `event` is answered with was taken for the user who made this call. Its
session could be joined when it was taken. It was sent by the store, to follow a party or back to a lobby, or its sender called `invite`
with the account id of this user, who is somebody else, hosted the session, which was the newest one to invite into, and was told that
the user is invited. The answer names the sender as the store did, and brings what the sender published last, of 1 to 16384 bytes, with
the session of the invitation as its id when that is a private room. -/
theorem invitation_told (argon2 : Argon2) (config : DebugConfig) {start : MiscState} (h : Idle start) (inputs : List MiscInput)
    {past rest : History} {t : MiscTransition} (hrun : trace (miscStep argon2 config) start inputs = past ++ t :: rest) {call : Nat}
    {task : Task} {event : InviteEvent} (hanswer : t.output = .answered call task (.ok (.event (some event)))) :
    ∃ userId invite, Delivered past call userId invite ∧ Tells config past t invite event := by
  have hinv : Inv past t.before :=
    (trace_history_of (P := Inv) (fun _ _ => True) (fun _ _ input hp _ => hp.step input) (inv_idle h) (fun _ _ _ _ => trivial)
      past t rest hrun).1
  have hstep : miscStep argon2 config t.before t.input = (t.after, t.output) :=
    (mem_trace (hrun ▸ List.mem_append_right _ List.mem_cons_self)).2
  -- only a handler that goes on answers
  obtain ⟨htask, hresume⟩ : t.before.tasks.lookup call = some task ∧
      (resume config t.input.now t.before task).2 = .answers (.ok (.event (some event))) := by
    have houtput := (congrArg Prod.snd hstep).trans hanswer
    unfold miscStep at houtput
    split at houtput
    · split at houtput <;> cases houtput
    · split at houtput
      · cases houtput
      · rename_i htask
        split at houtput
        · cases houtput
        · rename_i hresume
          cases houtput
          exact ⟨htask, by rw [hresume]⟩
    · cases houtput
  exact tells_of_inv hinv htask hresume rfl

namespace InvitationEvents

/-- The services after the migrations. -/
def idle : MiscState := { db := migrated, uplayGameSessions := ∅, tasks := ∅, calls := 0 }

/-- The metadata of the calls of a user. -/
def metadataOf (userId : Nat) : Metadata := { authorization := none, userId := some (formatId userId).toBytes }

/-- The user 1000 creates a private room, publishes its session and invites the user 1001, who asks for events. -/
def inviting : List MiscInput :=
  [⟨1000, .store .invalidateSessions rfl⟩, ⟨1001, .store (.registerUrls 1000 ["prudp:/address=127.0.0.1".toList]) rfl⟩,
    ⟨1002, .store (.createGameSession 1000 1 "113 => 0".toList) rfl⟩, ⟨1003, .call (metadataOf 1000) (.setGameSession 465 [1, 2, 3, 4] 7 true)⟩,
    ⟨1003, .call (metadataOf 1000) (.invite "ABCD".toList)⟩, ⟨1003, .resume 1⟩, ⟨1003, .resume 0⟩, ⟨1004, .resume 1⟩, ⟨1004, .resume 1⟩,
    ⟨1010, .call (metadataOf 1001) .event⟩, ⟨1010, .resume 2⟩, ⟨1010, .resume 2⟩]

/-- The user is told of the private room. -/
def told : InviteEvent :=
  { id := 1, sender := some { id := "MYID".toList, username := "Foo".toList, ips := [] }, forceJoin := false, kind := 1,
    gameSession := some { id := 2, data := [1, 2, 3, 4], flags := 7, inviteOnly := true } }

end InvitationEvents

/-- The user 1001 is told of the invitation of the user 1000, with the session published meanwhile. -/
theorem invitation_told_room :
    ∃ userId invite,
      Delivered (trace (miscStep Host.noHash ⟨false⟩) idle inviting) 2 userId invite ∧
        Tells ⟨false⟩ (trace (miscStep Host.noHash ⟨false⟩) idle inviting)
          ⟨run (miscStep Host.noHash ⟨false⟩) idle inviting, ⟨1011, .resume 2⟩,
            (miscStep Host.noHash ⟨false⟩ (run (miscStep Host.noHash ⟨false⟩) idle inviting) ⟨1011, .resume 2⟩).2,
            (miscStep Host.noHash ⟨false⟩ (run (miscStep Host.noHash ⟨false⟩) idle inviting) ⟨1011, .resume 2⟩).1⟩ invite told :=
  invitation_told Host.noHash ⟨false⟩ ⟨rfl, rfl, rfl⟩ (inviting ++ [⟨1011, .resume 2⟩])
    (by rw [trace_append, trace_singleton])
    (show _ = MiscOutput.answered 2 (.eventFrom 1001
      { id := 1, sender := 1000, receiver := 1001, kind := 1, sessionType := 1, sessionId := 2, deliveryCount := 1 }
      { id := 1000, username := "Foo".toList, ubiId := "MYID".toList, isOnline := false }) (.ok (.event (some told))) by decide +kernel)

end Scbl.Services.Api
