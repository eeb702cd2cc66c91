import DnsBuffer.Dns.Message

/-!
# Query events

What the pipeline reports about one answered client query. Events travel through a bounded channel
to the history worker and from there into the store; three subsystems share this record.
-/

namespace DnsBuffer

/-- `QueryEvent`. -/
structure QueryEvent where
  timestampMs : ℤ
  domain : Text
  queryType : Text
  responseCode : Text
  durationMs : ℕ
  blocked : Bool
  cacheHit : Bool
  responseIps : List Text
  /-- The upstream that answered; `none` for hosts, local-block and cache-hit answers. -/
  upstream : Option Text
deriving DecidableEq

/-- The `Display` texts that enter an event. -/
class Display where
  recordType : RecordType → Text
  ipAddr : IpAddr → Text

end DnsBuffer
