import DnsBuffer.Dns.Text

/-!
# DNS messages as the proxy sees them

The data model of `hickory_proto` restricted to what the proxy reads, writes or forwards: metadata,
question section, records, and the EDNS record with its options. Everything is plain data with
decidable equality, so a concrete exchange can be evaluated.

Two modelling decisions:

* A `Name` is known to the proxy by the text its `Display` writes and by nothing else: lookups,
  rule matching and cache keys all start from `q.name().to_string()`.
* A record type is its numeric code. An EDNS option is either a client subnet or an option of
  another code — the code is part of the constructor, so that no option of the subnet code can
  escape `Edns.removeSubnet`.
-/

namespace DnsBuffer

/-! ### Addresses, names and codes -/

/-- `std::net::IpAddr`. -/
inductive IpAddr
  | v4 (bits : BitVec 32)
  | v6 (bits : BitVec 128)
deriving DecidableEq

/-- `is_unspecified`: `0.0.0.0` or `::`. -/
def IpAddr.isUnspecified : IpAddr → Bool
  | .v4 bits => bits == 0
  | .v6 bits => bits == 0

/-- A domain name, given by the text `Name::to_string` writes. -/
structure Name where
  /-- The presentation form, trailing dot included. -/
  text : Text
deriving DecidableEq

/-- A record type, given by its numeric code. -/
structure RecordType where
  /-- `u16::from(record_type)`. -/
  code : UInt16
deriving DecidableEq

/-- `RecordType::A`. -/
def RecordType.A : RecordType := ⟨1⟩

/-- `RecordType::AAAA`. -/
def RecordType.AAAA : RecordType := ⟨28⟩

/-- `DNSClass`. -/
inductive DnsClass
  | IN | CH | HS | NONE | ANY
  | other (code : UInt16)
deriving DecidableEq

/-- `OpCode`. -/
inductive OpCode
  | query | status | notify | update
  | unknown (code : UInt8)
deriving DecidableEq

/-- `MessageType`. -/
inductive MessageType
  | query | response
deriving DecidableEq

/-- `ResponseCode`. -/
inductive ResponseCode
  | noError | formErr | servFail | nxDomain | notImp | refused | yxDomain | yxRRSet | nxRRSet
  | notAuth | notZone | badVers | badSig | badKey | badTime | badMode | badName | badAlg | badTrunc
  | badCookie
  | unknown (value : UInt16)
deriving DecidableEq

/-! ### EDNS -/

/-- The option code of EDNS Client Subnet. -/
def ednsSubnetCode : UInt16 := 8

/-- The payload of a client-subnet option: `ClientSubnet::new(address, source_prefix,
scope_prefix)`. -/
structure ClientSubnet where
  address : IpAddr
  sourcePrefix : UInt8
  scopePrefix : UInt8
deriving DecidableEq

/-- An EDNS option. -/
inductive EdnsOption
  | subnet (ecs : ClientSubnet)
  | other (code : UInt16) (hcode : code ≠ ednsSubnetCode) (data : List UInt8)
deriving DecidableEq

/-- The client subnet an option carries, if it carries one. -/
def EdnsOption.subnet? : EdnsOption → Option ClientSubnet
  | .subnet ecs => some ecs
  | .other _ _ _ => none

/-- The EDNS pseudo-record of a message. -/
@[ext] structure Edns where
  rcodeHigh : UInt8
  version : UInt8
  dnssecOk : Bool
  maxPayload : UInt16
  options : List EdnsOption
deriving DecidableEq

namespace Edns

/-- `Edns::new`: version 0, no flag, no option, the minimal payload of 512 bytes. -/
def new : Edns := ⟨0, 0, false, 512, []⟩

/-- `options_mut().remove(EdnsCode::Subnet)`: drop every option of the subnet code. -/
def removeSubnet (e : Edns) : Edns :=
  { e with options := e.options.filter fun o ↦ o.subnet?.isNone }

/-- `options_mut().insert(EdnsOption::Subnet(ecs))`: add one option. -/
def insertSubnet (e : Edns) (ecs : ClientSubnet) : Edns :=
  { e with options := e.options ++ [.subnet ecs] }

/-- The client subnets among the options, in order. -/
def subnets (e : Edns) : List ClientSubnet := e.options.filterMap EdnsOption.subnet?

@[simp] theorem subnets_removeSubnet (e : Edns) : e.removeSubnet.subnets = [] := by
  rw [subnets, List.filterMap_eq_nil_iff]
  intro o ho
  simpa using (List.mem_filter.1 ho).2

end Edns

/-! ### Messages -/

/-- A question. -/
structure Query where
  name : Name
  queryType : RecordType
  queryClass : DnsClass
deriving DecidableEq

/-- Record data: the two address families the proxy inspects, and everything else as bytes. -/
inductive RData
  | a (address : BitVec 32)
  | aaaa (address : BitVec 128)
  | other (recordType : RecordType) (data : List UInt8)
deriving DecidableEq

/-- The address an `A` or `AAAA` record carries. -/
def RData.address? : RData → Option IpAddr
  | .a address => some (.v4 address)
  | .aaaa address => some (.v6 address)
  | .other _ _ => none

/-- A resource record. -/
structure Record where
  name : Name
  ttl : UInt32
  data : RData
deriving DecidableEq

/-- Message metadata, the header without its counts. -/
structure Metadata where
  id : UInt16
  messageType : MessageType
  opCode : OpCode
  authoritative : Bool
  truncation : Bool
  recursionDesired : Bool
  recursionAvailable : Bool
  authenticData : Bool
  checkingDisabled : Bool
  responseCode : ResponseCode
deriving DecidableEq

/-- `hickory_proto::op::Message`. -/
structure Message where
  metadata : Metadata
  queries : List Query
  answers : List Record
  authorities : List Record
  additionals : List Record
  edns : Option Edns
deriving DecidableEq

/-- `Message::to_vec`, reduced to the length of the encoding; `none` where encoding fails. -/
class WireFormat where
  encodedLen : Message → Option ℕ

namespace Message

/-- `Message::new`: no flag, `NoError`, empty sections. -/
def new (id : UInt16) (messageType : MessageType) (opCode : OpCode) : Message where
  metadata := ⟨id, messageType, opCode, false, false, false, false, false, false, .noError⟩
  queries := []
  answers := []
  authorities := []
  additionals := []
  edns := none

/-- The client subnets a message discloses to whoever receives it. -/
def subnets (m : Message) : List ClientSubnet := (m.edns.map Edns.subnets).getD []

/-- The message with its transaction id replaced. -/
def withId (m : Message) (id : UInt16) : Message :=
  { m with metadata := { m.metadata with id := id } }

/-- The common shape of the responses the proxy builds itself: the request's id and opcode, its
`RD` flag, `RA` set. -/
def replyTo (query : Message) (responseCode : ResponseCode) : Message :=
  let resp := new query.metadata.id .response query.metadata.opCode
  { resp with
    metadata := { resp.metadata with
      responseCode := responseCode
      recursionDesired := query.metadata.recursionDesired
      recursionAvailable := true } }

/-- `servfail`: same id, the question section echoed, response code SERVFAIL. -/
def servfail (query : Message) : Message :=
  { query.replyTo .servFail with queries := query.queries }

@[simp] theorem replyTo_id (query : Message) (rc : ResponseCode) :
    (query.replyTo rc).metadata.id = query.metadata.id := rfl

@[simp] theorem replyTo_opCode (query : Message) (rc : ResponseCode) :
    (query.replyTo rc).metadata.opCode = query.metadata.opCode := rfl

end Message

end DnsBuffer
