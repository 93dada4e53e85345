import PacketAuth.Config
import PacketAuth.Event
import PacketAuth.Stats

/-! A service: one key and one configuration over a row of lanes, each with a session that is
opened once and the tag computed by its latest read. -/
namespace PacketAuth

structure Lane where
  id : LaneId
  session : Option SessionHandle := none
  cachedTag : Tag := .zero
  deriving DecidableEq

namespace Lane

def inspect (l : Lane) : String :=
  let guarded (value : String) : String := Text.record "Mutex" [("data", value)]
  Text.record "LaneState"
    [("id", l.id.inspect),
     ("session", guarded (Text.optional (l.session.map SessionHandle.inspect))),
     ("tag_cache", guarded l.cachedTag.inspect)]

/-- Keeps a computed tag, and says whether the one on the wire agrees with it. -/
def checkAndCache (tag : Tag) (wire : List UInt8) (l : Lane) : Bool × Lane :=
  (tag.agrees wire, { l with cachedTag := tag })

end Lane

/-- A dropped service is still there for the calls under way on it. -/
structure Service where
  config : Config
  key : AuthKey
  lanes : List Lane
  stats : Stats := {}
  isHeld : Bool := true
  deriving DecidableEq

namespace Service

/-- Fresh lanes, as many as asked for and at most as many as can be named. -/
def freshLanes (count : Nat) : List Lane :=
  (List.range (min count maxLaneCount)).map fun i => { id := ⟨i.toUInt8⟩ }

def create (config : Config) (key : AuthKey) : Service :=
  { config, key, lanes := freshLanes config.laneCount }

def lane (l : LaneId) (s : Service) : Except Failure Lane :=
  match s.lanes[l.index.toNat]? with
  | some lane => .ok lane
  | none =>
    .error ⟨.invalidLane, some (l.text ++ " of " ++ toString s.lanes.length)⟩

def updateLane (l : LaneId) (f : Lane → Lane) (s : Service) : Service :=
  { s with lanes := s.lanes.modify l.index.toNat f }

def count (c : Stats.Counter) (s : Service) : Service := { s with stats := s.stats.count c }

/-- The lanes with an open session, with its handle and the tag kept there. -/
def openLanes (s : Service) : List (LaneId × SessionHandle × Tag) :=
  s.lanes.filterMap fun l => l.session.map fun handle => (l.id, handle, l.cachedTag)

def inspect (s : Service) : String :=
  Text.partialRecord "MacService"
    [("lanes", toString s.lanes.length), ("config", s.config.inspect), ("key", s.key.inspect)]

@[simp] theorem freshLanes_length (n : Nat) : (freshLanes n).length = min n maxLaneCount := by
  simp [freshLanes]

@[simp] theorem updateLane_length (l : LaneId) (f : Lane → Lane) (s : Service) :
    (s.updateLane l f).lanes.length = s.lanes.length := by
  simp [updateLane]

end Service

/-- The settings of a service to be built, entered one by one. -/
structure Builder where
  key : Option AuthKey := none
  config : Config := {}
  deriving DecidableEq

namespace Builder

inductive Setting where
  | key (key : AuthKey)
  | config (config : Config)
  | laneCount (n : Nat)
  | layout (layout : Layout)
  | retry (policy : RetryPolicy)
  | waitTimeout (seconds nanoseconds : Nat)
  deriving DecidableEq

/-- A later setting replaces an earlier one; a whole configuration replaces all but the key. -/
def set (b : Builder) : Setting → Builder
  | .key key => { b with key := some key }
  | .config config => { b with config }
  | .laneCount n => { b with config := { b.config with laneCount := n } }
  | .layout layout => { b with config := { b.config with layout } }
  | .retry retry => { b with config := { b.config with retry } }
  | .waitTimeout seconds nanoseconds =>
    { b with config :=
      { b.config with waitTimeout := some (timeoutOfDuration seconds nanoseconds) } }

/-- A missing key counts before anything wrong in the configuration. -/
def build (b : Builder) (adding : Addition := .checked) : Except ConfigError Service :=
  match b.key with
  | none => .error .missingKey
  | some key => (b.config.validate adding).map fun _ => .create b.config key

/-- What building logs: that the service is ready, or what is wrong in its configuration. -/
def events (b : Builder) : List Event :=
  match b.build with
  | .ok _ =>
    [.serviceReady b.config.laneCount b.config.layout.prefixLength b.config.layout.tagOffset]
  | .error .missingKey => []
  | .error e => [.configRejected e]

def inspect (b : Builder) : String :=
  Text.partialRecord "MacServiceBuilder"
    [("has_key", Text.boolean b.key.isSome), ("config", b.config.inspect)]

end Builder
end PacketAuth
