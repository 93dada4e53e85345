import PacketAuth.Config
import PacketAuth.Toml.Document

/-! A service configuration read from a document. A key that is missing keeps its default, also
inside a table that is present; a key that is unknown is ignored. -/
namespace PacketAuth
open Toml (Value Entries)

/-- What does not concern a record may hold any value that can be represented. -/
private def ignoring (v : Value) (a : α) : Option α := if v.isSound then some a else none

namespace Layout

def setField (key : String) (v : Value) (l : Layout) : Option Layout :=
  if key = "reference_prefix_len" then
    (v.natBelow? UInt64.size).map fun n => { l with prefixLength := n }
  else if key = "tag_offset" then
    (v.natBelow? UInt64.size).map fun n => { l with tagOffset := n }
  else ignoring v l

/-- A table sets fields by name, an array sets them in order; a date sets none. -/
def ofValue? : Value → Option Layout
  | .table _ entries => entries.foldlM (fun l e => l.setField e.1 e.2) {}
  | .array _ items =>
    (["reference_prefix_len", "tag_offset"].zip items).foldlM (fun l e => l.setField e.1 e.2) {}
  | .date => some {}
  | _ => none

end Layout

namespace RetryPolicy

def setField (key : String) (v : Value) (p : RetryPolicy) : Option RetryPolicy :=
  if key = "max_busy_retries" then
    (v.natBelow? UInt32.size).map fun n => { p with maxRetries := some n }
  else if key = "busy_backoff_ms" then
    (v.natBelow? UInt64.size).map fun n => { p with backoff := n }
  else ignoring v p

def ofValue? : Value → Option RetryPolicy
  | .table _ entries => entries.foldlM (fun p e => p.setField e.1 e.2) {}
  | .array _ items =>
    (["max_busy_retries", "busy_backoff_ms"].zip items).foldlM (fun p e => p.setField e.1 e.2) {}
  | .date => some {}
  | _ => none

end RetryPolicy

namespace Config

def setField (key : String) (v : Value) (c : Config) : Option Config :=
  if key = "lane_count" then
    (v.natBelow? UInt64.size).map fun n => { c with laneCount := n }
  else if key = "wait_timeout_ms" then
    (v.natBelow? UInt64.size).map fun n => { c with waitTimeout := some n }
  else if key = "layout" then
    (Layout.ofValue? v).map fun l => { c with layout := l }
  else if key = "retry" then
    (RetryPolicy.ofValue? v).map fun p => { c with retry := p }
  else ignoring v c

def ofEntries? (entries : Entries) : Option Config :=
  entries.foldlM (fun c e => c.setField e.1 e.2) {}

/-- The configuration that a document describes, if a service can honour it. -/
def ofDocument (text : String) : Except ConfigError Config :=
  match (Toml.read text).bind ofEntries? with
  | none => .error (.unreadable "not a configuration document")
  | some c => c.validate.map fun _ => c

end Config
end PacketAuth
