import Ferrite.Server.StatusReport

/-!
# Statements that run alone

Nothing else touches the database between two calls of the statement, so a program
knows the database itself, not only what a contract promises about it. Faults and
clocks are whatever they are: every call meets a moment of its own.
-/

namespace Ferrite.Catalog.Call

/-- Whether a call changes the catalog cache. -/
def changesCache : {β : Type} → Call β → Bool
  | _, .reserveId _ _ => true
  | _, .takeId => true
  | _, .insertTable _ => true
  | _, .pushColumn _ _ => true
  | _, .removeTable _ => true
  | _, .insertIndex _ _ => true
  | _, .removeIndex _ => true
  | _, .rebuild _ _ => true
  | _, _ => false

end Ferrite.Catalog.Call

namespace Ferrite.Server

open Logical Catalog Sql Exec
open Logical.Prog (Keeps Only keeps_pure keeps_ask_bind keeps_ofExcept keeps_getState
  keeps_setState only_ofExcept)
open Storage (Hasher)

private theorem answer_cache {hasher : Hasher} {moment : Moment} {db : Database} {β : Type} {op : Call β}
    (keeps : op.changesCache = false) : (db.answer hasher moment op).2.cache = db.cache := by
  cases op with
  | storage op =>
    rw [Database.answer]
    split <;> rfl
  | commit txn =>
    rw [Database.answer]
    split <;> rfl
  | openScan txn table =>
    rw [Database.answer]
    split <;> rfl
  | scanNext txn table start =>
    rw [Database.answer]
    split <;> rfl
  | _ => first | rfl | cases keeps

/-- Every call is answered by the database the call before it left. -/
def alone (hasher : Hasher) : Contract Call SessionState Database where
  allows _ _ _ := True
  moves db _ op answer after := ∃ moment, db.answer hasher moment op = (answer, after)
  admits _ _ := True

/-- The call leaves the catalog cache as it is. -/
def SparesCache : {β : Type} → Call β → Prop := fun op => op.changesCache = false

section

variable {hasher : Hasher} {α : Type} {db : Database} {state : SessionState}

theorem alone_any (prog : Action α) : prog.Keeps (alone hasher) (fun _ _ _ => True) db state := by
  induction prog generalizing db state with
  | done result => trivial
  | fail error => trivial
  | hang => trivial
  | call op next ih => exact ⟨trivial, fun answer after _ => ih answer⟩
  | read next ih => exact ih state
  | write other next ih => exact ⟨trivial, ih⟩

/-- What is kept alone holds of the run in which nothing goes wrong. -/
theorem alone_performed {prog : Action α} {post : Database → SessionState → Except FerriteError α → Prop}
    (keeps : prog.Keeps (alone hasher) post db .default) {result : Except FerriteError α} {last : SessionState}
    {after : Database} (performed : db.perform hasher prog = .ok (result, last, after)) : post after last result := by
  unfold Database.perform at performed
  generalize SessionState.default = state at keeps performed
  induction prog generalizing db state with
  | done value =>
    obtain ⟨rfl, rfl, rfl⟩ : .ok value = result ∧ state = last ∧ db = after := by simpa [Prog.run] using performed
    exact keeps
  | fail error =>
    obtain ⟨rfl, rfl, rfl⟩ : .error error = result ∧ state = last ∧ db = after := by simpa [Prog.run] using performed
    exact keeps
  | hang => cases performed
  | call op next ih =>
    have answered := keeps.2 (db.answer hasher .calm op).1 (db.answer hasher .calm op).2 ⟨.calm, rfl⟩
    exact ih _ _ answered performed
  | read next ih => exact ih _ _ keeps performed
  | write other next ih => exact ih _ keeps.2 performed

theorem spares_cache {prog : Action α} (only : prog.Only SparesCache) :
    prog.Keeps (alone hasher) (fun (after : Database) last _ => after.cache = db.cache ∧ last = state) db state := by
  refine only.keeps (fun after : Database => after.cache = db.cache) (fun _ _ _ _ => trivial) ?_ rfl
  rintro β op before answer after same spares ⟨moment, answered⟩
  have left : (before.answer hasher moment op).2.cache = before.cache := answer_cache spares
  rw [answered] at left
  exact left.trans same

theorem readCache_bind {next : Cache → Action α} {post : Database → SessionState → Except FerriteError α → Prop}
    (rest : (next db.cache).Keeps (alone hasher) post db state) :
    (Action.readCache >>= next).Keeps (alone hasher) post db state := by
  refine keeps_ask_bind trivial ?_
  rintro answer after ⟨moment, answered⟩
  obtain ⟨rfl, rfl⟩ := Prod.mk.inj answered
  exact rest

end

/-! ## The transaction around a statement -/

section

variable {hasher : Hasher} {inner : Inner} {α : Type} {db : Database} {state : SessionState}

private theorem spares_begin : Action.begin.Only SparesCache := only_begin rfl

/-- A transaction that is not given up for its age leaves the cache alone. -/
theorem expire_spares (txn : TxnId) : (inner.expireStaleTransaction txn).Keeps (alone hasher)
    (fun after _ result => ∀ value, result = .ok value → after.cache = db.cache) db state := by
  rw [Inner.expireStaleTransaction]
  split
  next => exact keeps_pure fun _ _ => rfl
  next budget timeout =>
    refine keeps_getState ?_
    split
    next => exact keeps_pure fun _ _ => rfl
    next openedAt opened =>
      refine keeps_ask_bind trivial ?_
      rintro now after ⟨moment, answered⟩
      obtain ⟨rfl, rfl⟩ := Prod.mk.inj answered
      dsimp only
      split
      · exact keeps_pure fun _ _ => rfl
      · refine keeps_setState trivial ((alone_any _).attempt_bind fun _ _ _ _ => ?_)
        exact (alone_any _).bind (fun _ _ _ _ _ failed => by cases failed) fun _ _ _ _ _ failed => by cases failed

/-- A statement that succeeds leaves the cache its body left. -/
theorem inTransaction_alone {body : TxnId → Action α} {good : Cache → Prop}
    (works : ∀ txn before middle, before.cache = db.cache → (body txn).Keeps (alone hasher)
      (fun after _ result => ∀ value, result = .ok value → good after.cache) before middle) :
    (inner.inTransaction body).Keeps (alone hasher)
      (fun after _ result => ∀ value, result = .ok value → good after.cache) db state := by
  refine keeps_getState ?_
  split
  next txn opened =>
    refine (expire_spares txn).bind (fun _ _ _ _ => nofun) fun known middle _ same => ?_
    have snapshots : (Action.snapshot txn).Only SparesCache := only_unitCall rfl
    refine (spares_cache snapshots).bind (fun _ _ _ _ => nofun) fun _ _ _ spared => ?_
    exact works txn _ _ (spared.1.trans (same _ rfl))
  next closed =>
    refine (spares_cache spares_begin).bind (fun _ _ _ _ => nofun) fun before middle txn spared => ?_
    refine (works txn before middle spared.1).attempt_bind fun after last result holds => ?_
    cases result with
    | ok value =>
      have commits : (Action.commit txn).Only SparesCache := only_attempted rfl
      refine (spares_cache commits).bind (fun _ _ _ _ => nofun) fun _ _ _ spared => keeps_pure ?_
      exact fun _ _ => spared.1 ▸ holds value rfl
    | error e => exact (alone_any _).attempt_bind fun _ _ _ _ => nofun

/-- A definition statement that succeeds leaves the cache its body left. -/
theorem ddl_alone {good : Cache → Prop} (caller : Identity) (statement : Statement)
    (works : ∀ txn before middle, before.cache = db.cache → (inner.ddlBody statement txn).Keeps (alone hasher)
        (fun after _ result => ∀ value, result = .ok value → good after.cache) before middle) :
    (inner.inTransaction (inner.authorizedDdl caller statement)).Keeps (alone hasher)
      (fun after _ result => ∀ value, result = .ok value → good after.cache) db state := by
  refine inTransaction_alone fun txn before middle same => ?_
  refine (spares_cache (only_ofExcept _)).bind (fun _ _ _ _ => nofun) fun known _ _ spared => ?_
  have noted : (Inner.noteDdl txn).Keeps (alone hasher) (fun after _ _ => after.cache = db.cache) known middle := by
    refine keeps_getState ?_
    split
    · exact keeps_setState trivial (keeps_pure (spared.1.trans same))
    · exact keeps_pure (spared.1.trans same)
  rw [spared.2]
  exact noted.bind (fun _ _ _ _ => nofun) fun after last _ same => works txn after last same

end
end Ferrite.Server
