import Scbl.Lemmas.Accounts
import Scbl.Services.Api

/-!
# Whom a token authenticates

A token names its account by the id alone, and an id is given again when the user with the largest id was deleted. As long as no
registration is given the id of an account that a token was issued for, a token is accepted only while its account exists and is
accepted as that account; the first registration that is given such an id makes the token one of the new account.
-/

namespace Scbl.Services.Api

open Scbl.Lib Scbl.Rmc Scbl.Storage

/-- A transition of the services. -/
abbrev ApiTransition : Type := Transition Database ApiInput ApiAnswer

/-- A login issued a token for an account. -/
structure Issued (t : ApiTransition) (account : Account) (token : Text) : Prop where
  call : ∃ password nonce, t.input.call = .login account.username password nonce
  answer : ∃ error user, t.output = .login (.ok { error, token, user })
  account : account ∈ t.before.accounts

/-- A token that was issued is accepted only when its account has existed ever since, and then for that account. -/
def TokenIdentity (server : ApiServer) (past : List ApiTransition) (db : Database) : Prop :=
  ∀ earlier t since account token, past = earlier ++ t :: since → Issued t account token →
    ∀ now metadata metadata', metadata.authorization = some token.toBytes →
      (checkToken server now metadata db).2 = .ok metadata' →
      account ∈ db.accounts ∧ (∀ t' ∈ t :: since, account ∈ t'.after.accounts) ∧ authenticatedUserId metadata' = .ok account.id

/-- The name and the account id that a call registers. -/
def ApiCall.registration (server : ApiServer) : ApiCall → Option (Text × Option Text)
  | .register username password ubiId salt => (server.hashPassword password salt).map (fun _ => (username, some ubiId))
  | .store (.registerUser username _ ubiId) => some (username, ubiId)
  | _ => none

/-- A call registers a user, under an id. -/
def ApiCall.Registers (server : ApiServer) (db : Database) (call : ApiCall) (userId : Nat) : Prop :=
  ∃ username ubiId, call.registration server = some (username, ubiId) ∧ db.Free username ubiId ∧ userId = db.nextUserId

/-- A registration is given the id, a `u32`, of an account that a token was issued for. -/
def Reuses (server : ApiServer) (past : List ApiTransition) (t : ApiTransition) : Prop :=
  ∃ issue ∈ past, ∃ account token, Issued issue account token ∧ account.id < 2 ^ 32 ∧
    t.input.call.Registers server t.before account.id

namespace Tokens

/-! ## Reading a token back -/

/-- Visible ASCII. -/
def Visible (t : Text) : Prop := ∀ c ∈ t, 32 ≤ c.toNat ∧ c.toNat < 127

/-- A visible text is its own metadata value. -/
theorem toStr_toBytes {t : Text} (h : Visible t) : toStr t.toBytes = some t := by
  have hbytes : t.toBytes = t.map (fun c => UInt8.ofNat c.toNat) := by
    unfold Text.toBytes
    induction t with
    | nil => rfl
    | cons c t ih =>
      have hc : c.val.toNat ≤ 127 := Nat.le_of_lt (h c List.mem_cons_self).2
      rw [List.flatMap_cons, List.map_cons, ih fun c' hc' => h c' (List.mem_cons_of_mem c hc'), String.utf8EncodeChar, if_pos hc]
      rfl
  have hvalue : ∀ c ∈ t, (UInt8.ofNat c.toNat).toNat = c.toNat := fun c hc =>
    UInt8.toNat_ofNat_of_lt' (Nat.lt_trans (h c hc).2 (by decide))
  unfold toStr
  rw [hbytes, if_pos]
  · rw [List.map_map]
    refine congrArg some ((List.map_congr_left fun c hc => ?_).trans t.map_id)
    rw [Function.comp_apply, hvalue c hc, Char.ofNat_toNat, id]
  · intro b hb
    obtain ⟨c, hc, rfl⟩ := List.mem_map.mp hb
    refine .inl ⟨?_, ?_⟩
    · rw [UInt8.le_iff_toNat_le, hvalue c hc]
      exact (h c hc).1
    · rw [UInt8.lt_iff_toNat_lt, hvalue c hc]
      exact (h c hc).2

/-- The digits of an id are visible. -/
theorem visible_formatId (userId : Nat) : Visible (formatId userId) := by
  intro c hc
  have hdigit := Nat.isDigit_of_mem_toDigits (by decide) (by decide) hc
  simp only [Char.isDigit, Bool.and_eq_true, decide_eq_true_eq] at hdigit
  have h48 : 48 ≤ c.toNat := hdigit.1
  have h57 : c.toNat ≤ 57 := hdigit.2
  omega

/-- The encoded parts of a token are visible and hold no full stop. -/
theorem visible_encode (data : Bytes) : Visible (Base64.encode data) ∧ '.' ∉ Base64.encode data := by
  have hall : Base64.alphabet.all (fun c => decide ((32 ≤ c.toNat ∧ c.toNat < 127) ∧ c ≠ '.')) = true := by decide +kernel
  have halphabet : ∀ c ∈ Base64.alphabet, (32 ≤ c.toNat ∧ c.toNat < 127) ∧ c ≠ '.' :=
    fun c hc => of_decide_eq_true (List.all_eq_true.mp hall c hc)
  refine ⟨fun c hc => (halphabet c (Base64.mem_alphabet_of_mem_encode hc)).1, fun hdot => ?_⟩
  exact (halphabet '.' (Base64.mem_alphabet_of_mem_encode hdot)).2 rfl

/-- A token is visible. -/
theorem visible_tokenOf (server : ApiServer) (userId : Nat) (nonce : Nonce) : Visible (tokenOf server userId nonce) := by
  intro c hc
  rcases List.mem_append.mp hc with hc | hc
  · exact (visible_encode _).1 c hc
  · rcases List.mem_cons.mp hc with rfl | hc
    · decide
    · exact (visible_encode _).1 c hc

/-- What a token of a user opens to: the id, when it is a `u32`. -/
theorem openToken_tokenOf (server : ApiServer) (userId : Nat) (nonce : Nonce) :
    openToken server (some (tokenOf server userId nonce).toBytes) =
      if userId < 2 ^ 32 then .ok userId else .error (.unauthenticated "Invalid user".toList) := by
  have hsplit : (tokenOf server userId nonce).splitOn '.' =
      [Base64.encode (server.box.sealBox (formatId userId).toBytes nonce.bytes server.key), Base64.encode nonce.bytes] := by
    rw [tokenOf, List.splitOn_append_cons_self_of_not_mem (visible_encode _).2, List.splitOn_eq_singleton (visible_encode _).2]
  have hnonce : Nonce.fromSlice nonce.bytes = some nonce := dif_pos nonce.size
  simp only [openToken, toStr_toBytes (visible_tokenOf server userId nonce), hsplit, Base64.decode_encode, hnonce,
    server.box.openBox_sealBox, decodeUtf8_toBytes, formatId, parseU32_toDigits]
  by_cases hid : userId < 2 ^ 32
  · simp only [if_pos hid]
    rfl
  · simp only [if_neg hid]
    rfl

/-- Seeing a user at the API does not fail. -/
theorem touchApiPresence_ok (now : Time) (userId : Nat) (db : Database) : (touchApiPresence now userId db).2 = .ok () := by
  refine transaction_of_wp (P := fun r : Database × Except StorageError Unit => r.2 = .ok ()) ?_
  exact wp_statement_ok (db.integrity.updateUsers fun _ => rfl) fun _ _ => rfl

/-- A token of a user is accepted as long as there is a user with the id, and only then. -/
theorem checkToken_tokenOf (server : ApiServer) (now : Time) (metadata : Metadata) {userId : Nat} {nonce : Nonce}
    (h : metadata.authorization = some (tokenOf server userId nonce).toBytes) (db : Database) :
    (checkToken server now metadata db).2 =
      if userId < 2 ^ 32 ∧ db.HasUser userId then .ok { metadata with userId := some (formatId userId).toBytes }
      else .error (.unauthenticated "Invalid user".toList) := by
  have hopen := openToken_tokenOf server userId nonce
  by_cases hid : userId < 2 ^ 32
  · rw [if_pos hid] at hopen
    simp only [checkToken, h, hopen, hid, true_and]
    by_cases huser : db.HasUser userId
    · obtain ⟨name, hname⟩ := Option.isSome_iff_exists.mp (Tables.usernameOf_isSome_iff.mpr huser)
      have htouch := touchApiPresence_ok now userId db
      simp only [hname, if_pos huser]
      cases hr : touchApiPresence now userId db with
      | mk db' r =>
        rw [hr] at htouch
        cases htouch
        rfl
    · have hname : db.usernameOf userId = none := by
        rw [← Option.not_isSome_iff_eq_none, Tables.usernameOf_isSome_iff]
        exact huser
      simp only [hname, if_neg huser]
  · rw [if_neg hid] at hopen
    simp only [checkToken, h, hopen, hid, false_and, if_false]

/-- The handler reads the user of the token. -/
theorem authenticatedUserId_formatId {userId : Nat} (h : userId < 2 ^ 32) (authorization : Option Bytes) :
    authenticatedUserId { authorization, userId := some (formatId userId).toBytes } = .ok userId := by
  have hparse : parseU32 (formatId userId) = some userId := by rw [formatId, parseU32_toDigits, if_pos h]
  simp only [authenticatedUserId, toStr_toBytes (visible_formatId userId), hparse]
  rfl

/-! ## What a step does to the accounts -/

variable {server : ApiServer} {db : Database} {input : ApiInput}

/-- A call that registers nobody adds no account. -/
theorem losesAccounts_of_registration (h : input.call.registration server = none) : LosesAccounts db (step server db input).1 := by
  obtain ⟨now, call⟩ := input
  have hop : ∀ op : StorageOp, (∀ username passwordHash ubiId, op ≠ .registerUser username passwordHash ubiId) →
      LosesAccounts db (op.apply server.argon2 now db) := fun op => losesAccounts_step server.argon2 db ⟨now, op⟩
  cases call with
  | register username password ubiId salt =>
    have hhash : server.hashPassword password salt = none := Option.map_eq_none_iff.mp h
    simp only [step, register, hhash]
    exact refl_of LosesAccounts db
  | login username password nonce =>
    refine trans_of LosesAccounts (hop (.loginUser username password) fun _ _ _ => nofun) ?_
    simp only [step, login, StorageOp.apply]
    split <;> rename_i hr <;> simp only [hr] <;> exact refl_of LosesAccounts _
  | delete ubiId =>
    simp only [step, delete]
    split
    · exact refl_of LosesAccounts db
    · rename_i userId _
      refine trans_of LosesAccounts (hop (.deleteUser userId) fun _ _ _ => nofun) ?_
      simp only [StorageOp.apply]
      split <;> rename_i hr <;> simp only [hr] <;> exact refl_of LosesAccounts _
  | authenticate metadata =>
    simp only [step, checkToken]
    split
    · exact refl_of LosesAccounts db
    · rename_i userId _
      split
      · exact refl_of LosesAccounts db
      · refine trans_of LosesAccounts (hop (.touchApiPresence userId) fun _ _ _ => nofun) ?_
        simp only [StorageOp.apply]
        split <;> rename_i hr <;> simp only [hr] <;> exact refl_of LosesAccounts _
  | store op =>
    refine hop op fun username passwordHash ubiId he => ?_
    subst he
    nomatch h

/-- A call that registers somebody registers the user in the store. -/
theorem step_of_registration {username : Text} {ubiId : Option Text}
    (h : input.call.registration server = some (username, ubiId)) :
    ∃ passwordHash, (step server db input).1 = (registerUserUnsafe username passwordHash ubiId db).1 := by
  obtain ⟨now, call⟩ := input
  cases call with
  | register name password id salt =>
    obtain ⟨passwordHash, hhash, he⟩ := Option.map_eq_some_iff.mp h
    obtain ⟨rfl, rfl⟩ := Prod.mk.inj he
    refine ⟨passwordHash, ?_⟩
    simp only [step, register, hhash]
    split <;> rename_i hr <;> simp only [hr] <;> rfl
  | store op =>
    cases op with
    | registerUser name passwordHash id =>
      obtain ⟨rfl, rfl⟩ := Prod.mk.inj (Option.some.inj h)
      exact ⟨passwordHash, rfl⟩
    | _ => nomatch h
  | _ => nomatch h

/-- An account after a step was there before, or the step registered it. -/
theorem mem_accounts_step {account : Account} (h : account ∈ (step server db input).1.accounts) :
    account ∈ db.accounts ∨ input.call.Registers server db account.id := by
  cases hr : input.call.registration server with
  | none => exact .inl ((losesAccounts_of_registration hr).subset h)
  | some registration =>
    obtain ⟨username, ubiId⟩ := registration
    obtain ⟨passwordHash, hstep⟩ := step_of_registration hr
    rw [hstep] at h
    rcases registerUserUnsafe_cases db username passwordHash ubiId with ⟨hfree, hafter⟩ | ⟨-, hafter⟩
    · rw [hafter] at h
      rcases List.mem_append.mp h with h | h
      · exact .inl h
      · rw [List.mem_singleton.mp h]
        exact .inr ⟨username, ubiId, hr, hfree, rfl⟩
    · rw [hafter] at h
      exact .inl h

/-- The user a call registers is there after it, and was not before. -/
theorem hasUser_of_registers {userId : Nat} (h : input.call.Registers server db userId) :
    (step server db input).1.HasUser userId ∧ ¬ db.HasUser userId := by
  obtain ⟨username, ubiId, hr, hfree, rfl⟩ := h
  refine ⟨?_, db.not_hasUser_nextUserId⟩
  obtain ⟨passwordHash, hstep⟩ := step_of_registration hr
  rcases registerUserUnsafe_cases db username passwordHash ubiId with ⟨-, hafter⟩ | ⟨hnot, -⟩
  · rw [Tables.hasUser_iff, hstep, hafter]
    exact ⟨_, List.mem_append_right _ List.mem_cons_self, rfl⟩
  · exact absurd hfree hnot

/-- A login issues the token of its account, and leaves the account alone. -/
theorem issued_step {t : ApiTransition} (ht : step server t.before t.input = (t.after, t.output)) {account : Account} {token : Text}
    (h : Issued t account token) : (∃ nonce, token = tokenOf server account.id nonce) ∧ account ∈ t.after.accounts := by
  obtain ⟨db, ⟨now, call⟩, output, after⟩ := t
  obtain ⟨⟨password, nonce, rfl⟩, ⟨error, user, rfl⟩, haccount⟩ := h
  have hkept := accounts_loginUser server.argon2 account.username password db
  simp only [step, login] at ht haccount ⊢
  cases hr : loginUser server.argon2 account.username password db with
  | mk db' r =>
    rw [hr] at hkept ht
    have hanswer := congrArg Prod.snd ht
    -- only a login that succeeds is answered with a token
    cases r with
    | error e => nomatch hanswer
    | ok result =>
      cases result with
      | error e => cases e <;> nomatch hanswer
      | ok userId =>
        obtain ⟨u, hu, hname, hid, -⟩ := user_of_loginUser (congrArg Prod.snd hr)
        have hsame : u.account = account := by
          obtain ⟨v, hv, rfl⟩ := List.mem_map.mp haccount
          rw [List.inj_on_of_nodup_map db.keys.usernames hu hv hname]
        simp only [Prod.map, ApiAnswer.login.injEq, Except.ok.injEq, LoginResponse.mk.injEq] at hanswer
        refine ⟨⟨nonce, ?_⟩, ?_⟩
        · rw [← hsame, ← hanswer.2.1, ← hid]
          rfl
        · have hafter : db' = after := congrArg Prod.fst ht
          rw [← hafter, hkept]
          exact haccount

/-! ## Runs -/

/-- An account that a token was issued for has existed ever since, if there is still a user with its id. -/
def Kept (past : List ApiTransition) (db : Database) : Prop :=
  ∀ earlier t since account token, past = earlier ++ t :: since → Issued t account token → account.id < 2 ^ 32 →
    db.HasUser account.id → account ∈ db.accounts ∧ ∀ t' ∈ t :: since, account ∈ t'.after.accounts

/-- A step that reuses no id keeps the accounts of the tokens. -/
theorem kept_step {past : List ApiTransition} (h : Kept past db)
    (hc : ¬ Reuses server past ⟨db, input, (step server db input).2, (step server db input).1⟩) :
    Kept (past ++ [⟨db, input, (step server db input).2, (step server db input).1⟩]) (step server db input).1 := by
  intro earlier t since account token hpast hissued hid huser
  -- the token was issued by this step, or before it
  rcases List.eq_nil_or_concat' since with rfl | ⟨since, last, rfl⟩
  · obtain ⟨-, ht⟩ := List.append_inj' hpast rfl
    obtain ⟨rfl, -⟩ := List.cons.inj ht
    have hafter := (issued_step rfl hissued).2
    refine ⟨hafter, fun t' ht' => ?_⟩
    rw [List.mem_singleton.mp ht']
    exact hafter
  · rw [← List.cons_append, ← List.append_assoc] at hpast
    obtain ⟨hbegan, hlast⟩ := List.append_inj' hpast rfl
    obtain ⟨rfl, -⟩ := List.cons.inj hlast
    obtain ⟨a, ha, haid⟩ := Tables.hasUser_iff.mp huser
    have hbefore : a ∈ db.accounts := by
      refine (mem_accounts_step ha).resolve_right fun hregisters => hc ⟨t, ?_, account, token, hissued, hid, haid ▸ hregisters⟩
      rw [hbegan]
      exact List.mem_append_right _ List.mem_cons_self
    obtain ⟨haccount, hsince⟩ := h earlier t since account token hbegan hissued hid (Tables.hasUser_iff.mpr ⟨a, hbefore, haid⟩)
    have hafter : account ∈ (step server db input).1.accounts := account_unique db haccount hbefore haid.symm ▸ ha
    refine ⟨hafter, fun t' ht' => ?_⟩
    rw [← List.cons_append] at ht'
    rcases List.mem_append.mp ht' with ht' | ht'
    · exact hsince t' ht'
    · rw [List.mem_singleton.mp ht']
      exact hafter

/-- While the accounts of the tokens are kept, a token is accepted only for its account. -/
theorem tokenIdentity_of_kept {past : List ApiTransition} (hsteps : ∀ t ∈ past, step server t.before t.input = (t.after, t.output))
    (h : Kept past db) : TokenIdentity server past db := by
  rintro earlier t since account token rfl hissued now metadata metadata' hauthorization hok
  have ht := hsteps t (List.mem_append_right _ List.mem_cons_self)
  obtain ⟨⟨nonce, rfl⟩, -⟩ := issued_step ht hissued
  rw [checkToken_tokenOf server now metadata hauthorization db] at hok
  split at hok
  · rename_i hcond
    obtain ⟨hid, huser⟩ := hcond
    obtain ⟨haccount, hsince⟩ := h earlier t since account _ rfl hissued hid huser
    refine ⟨haccount, hsince, ?_⟩
    rw [← Except.ok.inj hok]
    exact authenticatedUserId_formatId hid metadata.authorization
  · nomatch hok

/-- A step that reuses the id of a token's account makes the token one of another account. -/
theorem not_tokenIdentity_of_reuses {db : Database} {inputs : List ApiInput} {past future : List ApiTransition} {t : ApiTransition}
    (hrun : trace (step server) db inputs = past ++ t :: future) (h : Reuses server past t) :
    ¬ TokenIdentity server (past ++ [t]) t.after := by
  intro hidentity
  obtain ⟨issue, hissue, account, token, hissued, hid, hregisters⟩ := h
  have hsteps : ∀ t' ∈ past ++ t :: future, step server t'.before t'.input = (t'.after, t'.output) :=
    fun t' ht' => (mem_trace (hrun ▸ ht')).2
  obtain ⟨nonce, rfl⟩ := (issued_step (hsteps issue (List.mem_append_left _ hissue)) hissued).1
  obtain ⟨earlier, since, rfl⟩ := List.append_of_mem hissue
  obtain ⟨hafter, hbefore⟩ := hasUser_of_registers hregisters
  rw [hsteps t (List.mem_append_right _ List.mem_cons_self)] at hafter
  have hok := checkToken_tokenOf server 0 ⟨some (tokenOf server account.id nonce).toBytes, none⟩ rfl t.after
  rw [if_pos ⟨hid, hafter⟩] at hok
  obtain ⟨-, hsince, -⟩ := hidentity earlier issue (since ++ [t]) account _ (by rw [List.append_assoc]; rfl) hissued 0 _ _ rfl hok
  -- the account was there before the step, whose registration was given its id
  refine hbefore (Tables.hasUser_iff.mpr ⟨account, ?_, rfl⟩)
  rcases List.eq_nil_or_concat' since with rfl | ⟨since, last, rfl⟩
  · rw [List.append_assoc] at hrun
    rw [← trace_chain hrun]
    exact hsince issue List.mem_cons_self
  · have hchain : trace (step server) db inputs = (earlier ++ issue :: since) ++ last :: t :: future := by
      rw [hrun]
      simp only [List.append_assoc, List.cons_append, List.nil_append]
    rw [← trace_chain hchain]
    exact hsince last (by simp)

/-! ## A run that reuses an id -/

/-- A login with a password that verifies is answered with the token of its user. -/
theorem login_answer {username password : Text} (now : Time) (nonce : Nonce) {userId : Nat}
    (h : (loginUser server.argon2 username password db).2 = .ok (.ok userId)) :
    (step server db ⟨now, .login username password nonce⟩).2 =
      .login (.ok { error := [], token := tokenOf server userId nonce, user := none }) := by
  simp only [step, login]
  cases hr : loginUser server.argon2 username password db with
  | mk db' r =>
    rw [hr] at h
    change r = _ at h
    subst h
    rfl

theorem opens_plain (msg _nonce _key : Bytes) : some msg = some msg := rfl

/-- Services whose password hash is the password. -/
def plainServer : ApiServer where
  argon2 := { verify := fun passwordHash password => some (passwordHash = password) }
  hashPassword password _ := some password
  box := { sealBox := fun msg _ _ => msg, openBox := fun data _ _ => some data, openBox_sealBox := opens_plain }
  key := List.replicate 32 0

/-- The user `sam` registers, logs in and is deleted; then `fisher` registers. -/
def reusing : List ApiInput :=
  [⟨0, .register "sam".toList "secret".toList "S1".toList []⟩, ⟨1, .login "sam".toList "secret".toList ⟨List.replicate 24 9, rfl⟩⟩,
    ⟨2, .delete "S1".toList⟩, ⟨3, .register "fisher".toList "other".toList "F1".toList []⟩]

end Tokens

open Tokens

/-- In a run from any database, a token that was issued is accepted, in every state, only when its account has existed ever since,
and then for that account, if and only if no registration is given the id of an account that a token was issued for. -/
theorem tokenIdentity_iff (server : ApiServer) (db : Database) (inputs : List ApiInput) :
    (∀ past t future, trace (step server) db inputs = past ++ t :: future → TokenIdentity server (past ++ [t]) t.after) ↔
      ∀ past t future, trace (step server) db inputs = past ++ t :: future → ¬ Reuses server past t := by
  constructor
  · intro h past t future hrun hreuses
    exact not_tokenIdentity_of_reuses hrun hreuses (h past t future hrun)
  · intro h past t future hrun
    have hkept : Kept (past ++ [t]) t.after :=
      (trace_history_of (P := Kept) (fun past t => ¬ Reuses server past t) (fun past db input => kept_step)
        (fun earlier t since _ _ he => absurd he (by simp)) h past t future hrun).2
    refine tokenIdentity_of_kept ?_ hkept
    intro t' ht'
    have hmem : t' ∈ trace (step server) db inputs := by
      rw [hrun, List.append_cons]
      exact List.mem_append_left _ ht'
    exact (mem_trace hmem).2

/-- The token of `sam` is accepted as the user `fisher`, who registered after `sam` was deleted and has the same id. -/
theorem tokenIdentity_false :
    ∃ past t, trace (step plainServer) migrated reusing = past ++ [t] ∧ ¬ TokenIdentity plainServer (past ++ [t]) t.after := by
  let db₁ := run (step plainServer) migrated (reusing.take 1)
  let db₃ := run (step plainServer) migrated (reusing.take 3)
  have hlogin : (loginUser plainServer.argon2 "sam".toList "secret".toList db₁).2 = .ok (.ok 1003) := by decide +kernel
  have haccount : { id := 1003, username := "sam".toList, ubiId := some "S1".toList } ∈ db₁.accounts := by decide +kernel
  have hfree : db₃.Free "fisher".toList (some "F1".toList) := by decide +kernel
  have hid : 1003 = db₃.nextUserId := by decide +kernel
  have hrun : trace (step plainServer) migrated reusing =
      trace (step plainServer) migrated (reusing.take 3) ++ trace (step plainServer) db₃ (reusing.drop 3) :=
    trace_append migrated (reusing.take 3) (reusing.drop 3)
  refine ⟨_, _, hrun, not_tokenIdentity_of_reuses hrun ?_⟩
  have hanswer := login_answer 1 ⟨List.replicate 24 9, rfl⟩ hlogin
  exact ⟨_, List.mem_cons_of_mem _ List.mem_cons_self, _, _, ⟨⟨_, _, rfl⟩, ⟨_, _, hanswer⟩, haccount⟩, by decide,
    "fisher".toList, some "F1".toList, rfl, hfree, hid⟩

end Scbl.Services.Api
