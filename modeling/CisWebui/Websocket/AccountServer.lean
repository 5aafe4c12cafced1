import CisWebui.Websocket.Privilege

/-!
# The server of the accounts

What the handlers of the accounts work on: the database, the context of their
connection and the reply.  Every call meets a luck of its own.
-/

namespace CisWebui
namespace Websocket

open Cpp Foundation

structure AccountServer where
  database : Database
  /-- What the calls to come meet, one after the other. -/
  lucks : Nat -> Luck
  ctx : RequestContext
  replied : Option Reply

instance (op : Op) : Inhabited op.Answer := by
  cases op <;> dsimp only [Op.Answer] <;> infer_instance

namespace AccountServer

def setDatabase (s : AccountServer) (database : Database) : AccountServer :=
  { s with database := database, lucks := fun n => s.lucks (n + 1) }

def setClient (s : AccountServer) (client : Option ClientInfo) : AccountServer :=
  { s with ctx := { s.ctx with clientInfo := client } }

def setReply (s : AccountServer) (r : Reply) : AccountServer :=
  { s with replied := some r }

/-- A call of the database; `none` is one that does not come back. -/
def perform (s : AccountServer) (c : Call) : Option (c.Answer × AccountServer) :=
  (databaseCall (s.lucks 0) s.database c).map fun (answer, db) =>
    (answer, s.setDatabase db)

/-- The machine has no world left once a call does not come back. -/
def machine : Machine Op Op.Answer (Option AccountServer) where
  perform
    | Op.call c, some s =>
        match s.perform c with
        | none => (default, none)
        | some (answer, s) => (answer, some s)
    | Op.reply r, some s => ((), some (s.setReply r))
    | Op.replyMoved _, some s => ((), some s)
    | Op.setClientInfo client, some s => ((), some (s.setClient client))
    | _, none => (default, none)

/-- What a handler leaves behind. -/
def handled (s : AccountServer) (p : Handler) : Option AccountServer :=
  (p.run machine (some s)).2

/-- The request has been answered with an error. -/
def Failed (s : AccountServer) : Prop :=
  exists r, s.replied = some r ∧ r.isError = true

def Succeeded (s : AccountServer) : Prop :=
  exists r, s.replied = some r ∧ r.isError = false

/-!
## Steps of a handler
-/

section Steps

variable (s : AccountServer)

theorem run_none (p : Handler) : (p.run machine none).2 = none := by
  induction p with
  | done a => rfl
  | fail f => rfl
  | perform op next ih =>
      rw [Program.run_perform]
      have hnone : (machine.perform op none).2 = none := by
        cases op <;> rfl
      rw [hnone]
      exact ih _

theorem handled_call {c : Call} {answer : c.Answer} {s' : AccountServer}
    (h : s.perform c = some (answer, s')) (next : c.Answer -> Handler) :
    s.handled (call c >>= next) = s'.handled (next answer) := by
  have hperform : machine.perform (Op.call c) (some s) = (answer, some s') := by
    show (match s.perform c with
      | none => (default, none)
      | some (answer, s) => (answer, some s)) = (answer, some s')
    rw [h]
  unfold handled
  rw [Program.run_bind, run_call hperform]

theorem handled_call_none {c : Call} (h : s.perform c = none)
    (next : c.Answer -> Handler) : s.handled (call c >>= next) = none := by
  have hperform : machine.perform (Op.call c) (some s) = (default, none) := by
    show (match s.perform c with
      | none => (default, none)
      | some (answer, s) => (answer, some s)) = (default, none)
    rw [h]
  unfold handled
  rw [Program.run_bind, run_call hperform]
  exact run_none _

theorem handled_reply (r : Reply) : s.handled (reply r) = some (s.setReply r) :=
  rfl

theorem handled_setClientInfo (client : Option ClientInfo) (next : Handler) :
    s.handled (setClientInfo client >>= fun _ => next) =
      (s.setClient client).handled next :=
  rfl

theorem failed_setReply_error (payload : Option ErrorPayload) (text : Str) :
    (s.setReply (Reply.error payload text)).Failed :=
  ⟨_, rfl, rfl⟩

theorem not_failed_setReply_success (payload : Success) :
    ¬ (s.setReply (Reply.success payload)).Failed := by
  intro h
  rcases h with ⟨r, hr, herror⟩
  cases hr
  cases herror

theorem succeeded_setReply_success (payload : Success) :
    (s.setReply (Reply.success payload)).Succeeded :=
  ⟨_, rfl, rfl⟩

theorem not_succeeded_of_failed (h : s.Failed) : ¬ s.Succeeded := by
  rcases h with ⟨r, hr, herror⟩
  intro hs
  rcases hs with ⟨r', hr', hsuccess⟩
  rw [hr] at hr'
  cases hr'
  rw [herror] at hsuccess
  cases hsuccess

/-- An answer with an error is a reply with an error, and nothing else. -/
theorem handled_checkEc_error {α : Type} (ec : ErrorCode) (next : α -> Handler) :
    s.handled (checkEc (Except.error ec) next) =
      some (s.setReply (Reply.error none (str "Internal error."))) :=
  rfl

theorem perform_isAdmin (email : Str) :
    s.perform (Call.isAdmin email) =
      some (RightsManager.isAdmin (s.lucks 0).fault email s.database,
        s.setDatabase s.database) :=
  rfl

end Steps

end AccountServer

end Websocket
end CisWebui
