import PacketAuth.Text.Quoted
import PacketAuth.Text.Record

/-! Why a service configuration is refused. -/
namespace PacketAuth

/-- Lanes are named by a byte, so there are at most this many. -/
def maxLaneCount : Nat := 256

inductive ConfigError where
  | noLanes
  | tooManyLanes (count : Nat)
  | tagOutsideFrame (tagOffset minLength : Nat)
  | prefixTooLong (length : Nat)
  | zeroTimeout
  | missingKey
  | unreadable (detail : String)
  deriving Repr, DecidableEq

namespace ConfigError

def message : ConfigError → String
  | noLanes => "lane_count must be at least 1"
  | tooManyLanes n =>
    "lane_count " ++ toString n ++ " exceeds maximum of " ++ toString maxLaneCount
  | tagOutsideFrame offset length =>
    "tag offset " ++ toString offset ++ " places the tag outside a " ++ toString length ++
      "-byte request"
  | prefixTooLong n => "reference prefix of " ++ toString n ++ " bytes does not fit a u16 length"
  | zeroTimeout => "wait_timeout_ms must be non-zero when set"
  | missingKey => "an authentication key is required"
  | unreadable detail => "invalid configuration: " ++ detail

def inspect : ConfigError → String
  | noLanes => "NoLanes"
  | tooManyLanes n => Text.wrapped "TooManyLanes" (toString n)
  | tagOutsideFrame offset length =>
    Text.record "TagOutsideFrame" [("tag_offset", toString offset), ("min_length", toString length)]
  | prefixTooLong n => Text.wrapped "PrefixTooLong" (toString n)
  | zeroTimeout => "ZeroTimeout"
  | missingKey => "MissingKey"
  | unreadable detail => Text.wrapped "Parse" (Text.quoted detail)

end ConfigError
end PacketAuth
