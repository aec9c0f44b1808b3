import Scbl.Lemmas.Identity
import Scbl.Theorems.Authentication

/-!
# Who is on the secure server

The ticket-granting service and the secure server run side by side and share a key. Packets reach the secure server in any order and
from anywhere; what is asked of the world is only that nobody else seals tickets under the key (`Issued`). Then every user of the
secure server was introduced by the ticket-granting service: it logged in on a connection there, with its password or through `login`.
-/

namespace Scbl.Auth

open Scbl.Lib Scbl.Prudp

variable {σ T : Type}

/-- The two servers. The secure server may have ended in a panic, which leaves the other one running. -/
structure Deployment (σ T : Type) where
  auth : AuthState
  secure : ServerState σ T

/-- A step of one of the servers. -/
inductive DeploymentStep where
  | auth (call : AuthCall)
  | secure (step : ServerStep)

/-- One step, and the answer of the ticket-granting service if it took it. -/
def deploymentStep (auth : AuthService) (svc : Service σ T) [Inhabited T] (d : Deployment σ T) :
    DeploymentStep → Deployment σ T × Option Answer
  | .auth call => ({ d with auth := (authStep auth d.auth call).1 }, (authStep auth d.auth call).2)
  | .secure step => ({ d with secure := (liveStep (serverStep svc) d.secure step).1 }, none)

/-- A transition of the two servers. -/
abbrev DeploymentTransition (σ T : Type) : Type := Transition (Deployment σ T) DeploymentStep (Option Answer)

/-- The transition of the ticket-granting service in one of the two servers. -/
def authTransition (t : DeploymentTransition σ T) : Option AuthTransition :=
  match t.input with
  | .auth call => some ⟨t.before.auth, call, t.output, t.after.auth⟩
  | .secure _ => none

/-- A `login` named the user on the connection. -/
def Named (past : List AuthTransition) (connection userId : UInt32) : Prop :=
  ∃ t ∈ past, ∃ entropy username, t.input = .login connection entropy username ∧
    findUserIdByName t.before.storage username = some userId

/-- The user logged in on a connection of the ticket-granting service: with its password, or by name through `login`. -/
def Introduced (auth : AuthService) (past : List AuthTransition) (connection userId : UInt32) : Prop :=
  Verified auth past connection userId ∨ Named past connection userId

/-- The ticket that a step presents to the secure server was handed out by the ticket-granting service before. -/
def Issued (svc : Service σ T) (past : List (DeploymentTransition σ T)) (t : DeploymentTransition σ T) : Prop :=
  ∀ step, t.input = .secure step → ∀ s user, Identity.Accepts svc step s user →
    ∃ t' ∈ past.filterMap authTransition, ∃ answer ∈ t'.output, ∃ ticket ∈ answer.granted, ticket.internal.principleId = user

/-- Every connection of the secure server that has a user has one that was introduced. -/
def UsersIntroduced (auth : AuthService) (past : List (DeploymentTransition σ T)) (d : Deployment σ T) : Prop :=
  ∀ srv, d.secure = .ok srv → ∀ s ci user, srv.clientRegistry.clients.lookup s = some ci → ci.userId = some user →
    ∃ connection, Introduced auth (past.filterMap authTransition) connection user

namespace SecureUsers

variable {auth : AuthService} {svc : Service σ T}

/-- Who was introduced stays introduced. -/
theorem Introduced.append {past more : List AuthTransition} {connection userId : UInt32} (h : Introduced auth past connection userId) :
    Introduced auth (past ++ more) connection userId := by
  rcases h with h | ⟨t, ht, hrest⟩
  · exact .inl h.append
  · exact .inr ⟨t, List.mem_append_left _ ht, hrest⟩

/-- The users of the connections of the ticket-granting service, and of the tickets it handed out, were introduced. -/
structure AuthInv (auth : AuthService) (past : List AuthTransition) (st : AuthState) : Prop where
  users : ∀ connection userId, st.userId connection = some userId → Introduced auth past connection userId
  tickets : ∀ t ∈ past, ∀ answer ∈ t.output, ∀ ticket ∈ answer.granted,
    ∃ connection, Introduced auth past connection ticket.internal.principleId

/-- A call of the ticket-granting service keeps its users and tickets those of introduced users. -/
theorem AuthInv.step {past : List AuthTransition} {st : AuthState} (h : AuthInv auth past st) (call : AuthCall) :
    AuthInv auth (past ++ [⟨st, call, (authStep auth st call).2, (authStep auth st call).1⟩]) (authStep auth st call).1 := by
  let t : AuthTransition := ⟨st, call, (authStep auth st call).2, (authStep auth st call).1⟩
  rcases Authentication.authStep_cases auth st call with ⟨husers, hnone⟩ | ⟨connection, userId, hconnection, hgrants, hreason⟩
  · refine ⟨fun c u hu => ?_, fun t' ht' answer hanswer ticket hticket => ?_⟩
    · rw [husers] at hu
      exact Introduced.append (h.users c u hu)
    · rcases List.mem_append.mp ht' with ht' | ht'
      · obtain ⟨c, hc⟩ := h.tickets t' ht' answer hanswer ticket hticket
        exact ⟨c, Introduced.append hc⟩
      · rw [List.mem_singleton.mp ht'] at hanswer
        rw [hnone answer hanswer] at hticket
        nomatch hticket
  · have hintroduced : Introduced auth (past ++ [t]) connection userId := by
      rcases hreason with ⟨entropy, username, hcall, hfound⟩ | ⟨entropy, request, data, hcall, hdata, hpasses⟩ | huser
      · exact .inr ⟨t, List.mem_append_right _ List.mem_cons_self, entropy, username, hcall, hfound⟩
      · exact .inl ⟨t, List.mem_append_right _ List.mem_cons_self, entropy, request, data, hcall, hdata, hpasses⟩
      · exact Introduced.append (h.users connection userId huser)
    refine ⟨fun c u hu => ?_, fun t' ht' answer hanswer ticket hticket => ?_⟩
    · rw [hgrants.users, AuthState.setUserId] at hu
      dsimp only at hu
      split at hu
      · rename_i hc
        rw [hc, ← Option.some.inj hu]
        exact hintroduced
      · exact Introduced.append (h.users c u hu)
    · rcases List.mem_append.mp ht' with ht' | ht'
      · obtain ⟨c, hc⟩ := h.tickets t' ht' answer hanswer ticket hticket
        exact ⟨c, Introduced.append hc⟩
      · rw [List.mem_singleton.mp ht'] at hanswer
        obtain ⟨a, ticket', ha, hticket', hprinciple⟩ := hgrants.granted
        rw [ha] at hanswer
        cases hanswer
        rw [hticket'] at hticket
        cases hticket
        rw [hprinciple]
        exact ⟨connection, hintroduced⟩

/-- What holds of the two servers after every step. -/
structure Inv (auth : AuthService) (past : List (DeploymentTransition σ T)) (d : Deployment σ T) : Prop where
  granting : AuthInv auth (past.filterMap authTransition) d.auth
  unnamed : ∀ srv, d.secure = .ok srv → Connect.Unnamed srv
  users : UsersIntroduced auth past d

/-- A call of the ticket-granting service keeps the invariant. -/
theorem Inv.granted [Inhabited T] {past : List (DeploymentTransition σ T)} {d : Deployment σ T} (h : Inv auth past d) (call : AuthCall) :
    Inv auth (past ++ [⟨d, .auth call, (deploymentStep auth svc d (.auth call)).2, (deploymentStep auth svc d (.auth call)).1⟩])
      (deploymentStep auth svc d (.auth call)).1 := by
  refine ⟨?_, h.unnamed, fun srv hsrv s ci user hl hu => ?_⟩
  · rw [List.filterMap_append]
    exact h.granting.step call
  · obtain ⟨c, hc⟩ := h.users srv hsrv s ci user hl hu
    rw [List.filterMap_append]
    exact ⟨c, Introduced.append hc⟩

/-- A step of the secure server that presents an issued ticket, if any, keeps the invariant. -/
theorem Inv.served [Inhabited T] (hkeeps : svc.KeepsIdentity) {past : List (DeploymentTransition σ T)} {d : Deployment σ T}
    (h : Inv auth past d) (step : ServerStep)
    (hissued : Issued svc past
      ⟨d, .secure step, (deploymentStep auth svc d (.secure step)).2, (deploymentStep auth svc d (.secure step)).1⟩) :
    Inv auth (past ++ [⟨d, .secure step, (deploymentStep auth svc d (.secure step)).2, (deploymentStep auth svc d (.secure step)).1⟩])
      (deploymentStep auth svc d (.secure step)).1 := by
  -- the step is none of the ticket-granting service
  have hpast : List.filterMap authTransition (past ++ [⟨d, .secure step, (deploymentStep auth svc d (.secure step)).2,
      (deploymentStep auth svc d (.secure step)).1⟩]) = past.filterMap authTransition := by
    rw [List.filterMap_append]
    exact List.append_nil _
  refine ⟨by rw [hpast]; exact h.granting, fun srv hsrv => ?_, fun srv hsrv s ci user hl hu => ?_⟩
  · obtain ⟨srv0, o, hsrv0, hstep, -⟩ := liveStep_ok hsrv
    exact (h.unnamed srv0 hsrv0).step hstep
  · obtain ⟨srv0, o, hsrv0, hstep, -⟩ := liveStep_ok hsrv
    rw [hpast]
    rcases Identity.identity_step hkeeps (h.unnamed srv0 hsrv0) hstep hl with ⟨ci0, hl0, hsame⟩ | hnone | ⟨user', haccepts, hsame⟩
    · exact h.users srv0 hsrv0 s ci0 user hl0 ((congrArg Prod.fst hsame).symm.trans hu)
    · exact absurd ((congrArg Prod.fst hnone).symm.trans hu) (Option.some_ne_none _).symm
    · obtain rfl := Option.some.inj ((congrArg Prod.fst hsame).symm.trans hu)
      obtain ⟨t, ht, answer, hanswer, ticket, hticket, hprinciple⟩ := hissued step rfl s user' haccepts
      rw [← hprinciple]
      exact h.granting.tickets t ht answer hanswer ticket hticket

end SecureUsers

open SecureUsers

/-- In every interleaving of the calls of the ticket-granting service and the steps of the secure server, as long as nobody else seals
tickets under their key, every user of the secure server was introduced by the ticket-granting service before. -/
theorem secure_users_introduced (auth : AuthService) (svc : Service σ T) [Inhabited T] (hkeeps : svc.KeepsIdentity) (st : AuthState)
    (hst : ∀ connection, st.userId connection = none) (app : σ) (steps : List DeploymentStep)
    (hissued : ∀ past t rest, trace (deploymentStep auth svc) ⟨st, .ok (Server.new app)⟩ steps = past ++ t :: rest →
      Issued svc past t) :
    UsersIntroduced auth (trace (deploymentStep auth svc) ⟨st, .ok (Server.new app)⟩ steps)
      (run (deploymentStep auth svc) ⟨st, .ok (Server.new app)⟩ steps) := by
  have hinit : Inv (σ := σ) (T := T) auth [] ⟨st, .ok (Server.new app)⟩ := by
    refine ⟨⟨fun c u hu => ?_, fun t ht => (nomatch ht)⟩, fun srv hsrv => ?_, fun srv hsrv s ci user hl => ?_⟩
    · exact absurd ((hst c).symm.trans hu) (Option.some_ne_none _).symm
    · rw [← Except.ok.inj hsrv]
      exact fun s ci hl => (nomatch hl)
    · rw [← Except.ok.inj hsrv] at hl
      nomatch hl
  have hstep : ∀ past d a, Inv auth past d →
      Issued svc past ⟨d, a, (deploymentStep auth svc d a).2, (deploymentStep auth svc d a).1⟩ →
      Inv auth (past ++ [⟨d, a, (deploymentStep auth svc d a).2, (deploymentStep auth svc d a).1⟩]) (deploymentStep auth svc d a).1 := by
    intro past d a hi hc
    cases a with
    | auth call => exact hi.granted call
    | secure step => exact hi.served hkeeps step hc
  -- the state after the last step, or the first one
  rcases List.eq_nil_or_concat steps with rfl | ⟨steps', a, rfl⟩
  · exact hinit.users
  · rw [List.concat_eq_append, trace_append, run_append]
    have htrace : trace (deploymentStep auth svc) ⟨st, .ok (Server.new app)⟩ (steps'.concat a) =
        trace (deploymentStep auth svc) ⟨st, .ok (Server.new app)⟩ steps' ++
          trace (deploymentStep auth svc) (run (deploymentStep auth svc) ⟨st, .ok (Server.new app)⟩ steps') [a] := by
      rw [List.concat_eq_append, trace_append]
    exact (trace_history_of (Issued svc) hstep hinit hissued _ _ _ htrace).2.users

section

open Registry AtMostOnce

namespace SecureUsers

/-- The user `Foo` logs in, and its ticket is presented on a new connection. -/
def fooSteps : List DeploymentStep :=
  [.auth (.login 7 Authentication.entropy "Foo".toList), .secure synStep, .secure (connectStep ticketData)]

/-- The two servers when they start. -/
def fooStart : Deployment Unit Unit := ⟨Authentication.started, .ok (Server.new ())⟩

/-- A `login` hands out a ticket for the user it names. -/
theorem issued_of_login (auth : AuthService) (svc : Service σ T) [Inhabited T] (d : Deployment σ T) (connection : UInt32)
    (entropy : Entropy) {username : Text} {userId : UInt32} (hfound : findUserIdByName d.auth.storage username = some userId)
    {past : List (DeploymentTransition σ T)} {t : DeploymentTransition σ T}
    (ht : t = ⟨d, .auth (.login connection entropy username), (deploymentStep auth svc d (.auth (.login connection entropy username))).2,
      (deploymentStep auth svc d (.auth (.login connection entropy username))).1⟩) (hmem : t ∈ past) :
    ∃ t' ∈ past.filterMap authTransition, ∃ answer ∈ t'.output, ∃ ticket ∈ answer.granted, ticket.internal.principleId = userId := by
  obtain ⟨answer, granted, hanswer, hgranted, hprinciple⟩ :=
    (Authentication.login_grants auth entropy d.auth connection hfound).granted
  exact ⟨_, List.mem_filterMap.mpr ⟨t, hmem, by rw [ht]; rfl⟩, answer, hanswer, granted, hgranted, hprinciple⟩

/-- The handlers of the example give no identity. -/
theorem keepsIdentity_silent : silentService.KeepsIdentity := by
  intro port handler env sig reg app data r hhandler hr s ci' hl
  obtain rfl := Option.some.inj hhandler
  rw [← Except.ok.inj hr] at hl
  exact ⟨ci', hl, rfl⟩

/-- The ticket on the new connection is that of `Foo`. -/
theorem issued_foo : ∀ past t rest,
    trace (deploymentStep Authentication.service silentService) fooStart fooSteps = past ++ t :: rest → Issued silentService past t := by
  intro past t rest htrace step hinput s user haccepts
  obtain ⟨env, p, client, rfl, hack, ht, hs, ticket, rdr, requestData, left, ti, hticket, hrequest, hopen, hvalid, huser⟩ := haccepts
  have hinputs := congrArg (List.map Transition.input) htrace
  rw [trace_inputs, List.map_append, List.map_cons, hinput] at hinputs
  rcases past with - | ⟨t1, - | ⟨t2, - | ⟨t3, past⟩⟩⟩
  · cases (List.cons.inj hinputs).1
  · -- the SYN presents no ticket
    obtain ⟨-, hsyn, -⟩ := DeploymentStep.secure.inj (List.cons.inj (List.cons.inj hinputs).2).1 |> ServerStep.packet.inj
    rw [← hsyn] at ht
    cases ht
  · obtain ⟨-, hconnect, -⟩ :=
      DeploymentStep.secure.inj (List.cons.inj (List.cons.inj (List.cons.inj hinputs).2).2).1 |> ServerStep.packet.inj
    rw [← hconnect] at hticket
    obtain ⟨-, rfl⟩ := Connect.readVec_ticketData hticket hrequest hopen
    have hfirst := (List.cons.inj htrace).1
    have hfound : findUserIdByName Authentication.started.storage "Foo".toList = some 1000 := by decide +kernel
    rw [← huser]
    exact issued_of_login Authentication.service silentService fooStart 7 Authentication.entropy hfound hfirst.symm List.mem_cons_self
  · exact absurd (List.cons.inj (List.cons.inj (List.cons.inj hinputs).2).2).2 (by simp)

end SecureUsers

/-- `Foo` logs in and connects: the connection on the secure server has this user, who was introduced. -/
theorem secure_users_introduced_foo :
    (∃ srv ci, (run (deploymentStep Authentication.service silentService) fooStart fooSteps).secure = .ok srv ∧
      srv.clientRegistry.clients.lookup 7 = some ci ∧ ci.userId = some 1000) ∧
      UsersIntroduced Authentication.service (trace (deploymentStep Authentication.service silentService) fooStart fooSteps)
        (run (deploymentStep Authentication.service silentService) fooStart fooSteps) := by
  constructor
  · obtain ⟨srv, hsrv, hboth⟩ := exists_ok_of_toOption
      (x := run (liveStep (serverStep silentService)) (.ok (Server.new ())) [synStep, connectStep ticketData])
      (f := fun srv => (srv.clientRegistry.clients.lookup 7).bind (·.userId)) (b := some 1000) (by decide +kernel)
    obtain ⟨ci, hci, huser⟩ := Option.bind_eq_some_iff.mp hboth
    exact ⟨srv, ci, hsrv, hci, huser⟩
  · exact secure_users_introduced Authentication.service silentService keepsIdentity_silent Authentication.started (fun _ => rfl) ()
      fooSteps issued_foo

end

end Scbl.Auth
