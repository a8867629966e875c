/-!
# Schema migrations

The tables, indexes and triggers of the database and the migrations that bring them about. The
migrations form a row, of which an initial part is applied.
-/

namespace WebSub.Schema

inductive Kind where
  | index
  | table
  | trigger
deriving DecidableEq, Repr

def Kind.name : Kind → String
  | .index => "index"
  | .table => "table"
  | .trigger => "trigger"

/-- A named part of the schema and the table that it belongs to. -/
structure Part where
  kind : Kind
  name : String
  table : String
deriving DecidableEq, Repr

structure Migration where
  name : String
  creates : List Part
deriving DecidableEq, Repr

def subscriptionsTable : String := "subscriptions"
def eventsTable : String := "webhook_events"

def migrations : List Migration := [
  ⟨"m20260101_000001_create_subscriptions", [
    ⟨.table, subscriptionsTable, subscriptionsTable⟩,
    ⟨.index, "idx_subscriptions_channel_callback", subscriptionsTable⟩,
    ⟨.index, "idx_subscriptions_status_expires", subscriptionsTable⟩,
    ⟨.index, "idx_subscriptions_topic", subscriptionsTable⟩]⟩,
  ⟨"m20260101_000002_create_webhook_events", [
    ⟨.table, eventsTable, eventsTable⟩,
    ⟨.index, "idx_webhook_events_content_hash", eventsTable⟩]⟩,
  ⟨"m20260101_000003_webhook_events_append_only", [
    ⟨.trigger, "webhook_events_no_delete", eventsTable⟩,
    ⟨.trigger, "webhook_events_immutable", eventsTable⟩]⟩]

/-- A database, as far as migrations see it: how many of them are applied. -/
structure Database where
  applied : Nat := 0
  applied_le : applied ≤ migrations.length := by decide

/-- A change of what is applied; a bound of `none` is no bound. -/
inductive Command where
  | up (bound : Option Nat)
  | down (bound : Option Nat)
  | fresh
  | refresh
  | reset
deriving DecidableEq, Repr

namespace Database

def upgrade (d : Database) (bound : Option Nat) : Database :=
  ⟨min (d.applied + bound.getD migrations.length) migrations.length, Nat.min_le_right _ _⟩

def downgrade (d : Database) (bound : Option Nat) : Database :=
  ⟨d.applied - bound.getD migrations.length, Nat.le_trans (Nat.sub_le _ _) d.applied_le⟩

def run (d : Database) : Command → Database
  | .up bound => d.upgrade bound
  | .down bound => d.downgrade bound
  | .fresh => ({} : Database).upgrade none
  | .refresh => (d.downgrade none).upgrade none
  | .reset => d.downgrade none

def appliedNames (d : Database) : List String := (migrations.take d.applied).map (·.name)

def pendingNames (d : Database) : List String := (migrations.drop d.applied).map (·.name)

/-- Whether one part comes before another: by kind, then by name. -/
def precedes (a b : Part) : Bool :=
  if a.kind = b.kind then decide (a.name ≤ b.name) else decide (a.kind.name ≤ b.kind.name)

def schema (d : Database) : List Part :=
  ((migrations.take d.applied).flatMap (·.creates)).mergeSort precedes

end Database

end WebSub.Schema
