import SyncServer.Messaging.Outgoing

/-! # The server process

The database, and what the process keeps in memory: the token for the setup of the first
administrator, the times of the registrations from each address, and the keys of remote
actors. Beside them stands what the server has sent so far.
-/

namespace SyncServer
open Transaction

structure CachedPublicKey where
  publicKeyPem : String
  fetchedAtTs : Int
deriving DecidableEq, Repr

structure Server where
  db : Db
  setupToken : Option String
  registrations : List (String × Int)
  actorKeys : List (String × CachedPublicKey)
  sent : List Outgoing

def Server.setDb (s : Server) (d : Db) : Server := { s with db := d }

abbrev Handler (α : Type) := Tx Server RowLock AppError α

def onDb {α : Type} (q : Query α) : Handler α := q.onPart Server.db Server.setDb

theorem onDb_bind {α β : Type} (q : Query α) (f : α → Query β) :
    onDb (q >>= f) = onDb q >>= fun a => onDb (f a) :=
  Tx.onPart_bind Server.db Server.setDb q f

theorem run_onDb {α : Type} (q : Query α) (s : Server) :
    (onDb q).run s = ((q.run s.db).1, s.setDb (q.run s.db).2) :=
  Tx.run_onPart Server.db Server.setDb (fun _ => rfl) (fun _ _ => rfl) (fun _ _ _ => rfl) q s

theorem run_onDb_eq {α : Type} {q : Query α} {s : Server} {r : Except AppError α} {d : Db}
    (h : q.run s.db = (r, d)) : (onDb q).run s = (r, s.setDb d) := by
  rw [run_onDb, h]

theorem run_onDb_read {α : Type} {q : Query α} {s : Server} {r : Except AppError α}
    (h : q.run s.db = (r, s.db)) : (onDb q).run s = (r, s) := run_onDb_eq h

theorem run_onDb_eq_iff {α : Type} {q : Query α} {s s' : Server} {r : Except AppError α} :
    (onDb q).run s = (r, s') ↔ ∃ d, q.run s.db = (r, d) ∧ s' = s.setDb d := by
  rw [run_onDb, Prod.mk.injEq]
  constructor
  · rintro ⟨rfl, rfl⟩
    exact ⟨_, rfl, rfl⟩
  · rintro ⟨d, h, rfl⟩
    rw [h]
    exact ⟨rfl, rfl⟩

theorem keeps_onDb {α τ : Type} {π : Db → τ} {q : Query α} (h : q.Keeps π) :
    (onDb q).Keeps (fun s => π s.db) :=
  Tx.writes_onPart (fun _ hw (s : Server) => hw s.db) h

theorem keeps_sent {α : Type} (q : Query α) : (onDb q).Keeps Server.sent := by
  unfold onDb
  induction q with
  | done r => trivial
  | stmt l w a n ih => exact ⟨fun _ => rfl, ih⟩

/-- Send something. -/
def send (o : Outgoing) : Handler Unit :=
  Tx.exec (fun _ => []) (fun s => .ok ((), { s with sent := s.sent ++ [o] }))

theorem keeps_db_send (o : Outgoing) : (send o).Keeps Server.db := Tx.writes_exec (fun _ => rfl) _

theorem run_send (o : Outgoing) (s : Server) :
    (send o).run s = (.ok (), { s with sent := s.sent ++ [o] }) := rfl

end SyncServer
