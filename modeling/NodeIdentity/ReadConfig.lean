import NodeIdentity.Dhcp
import NodeIdentity.Library.DomTree

/-!
# The configuration file

`read_config` of `configuration.c` on the document the parser leaves.
`get_data` visits all nodes, compares the name of each element with those of
the settings, and stores the content of its first child in the variables of
the setting.  Settings of the DHT are passed over until a type has been read
which is that of a core node.
-/

namespace NodeIdentity

open NodeIdentity.Library

def isSpace (character : UInt8) : Bool :=
  character = 32 ∨ 9 ≤ character ∧ character ≤ 13

/-- The number which the leading digits spell. -/
def digitsValue (src : List UInt8) : Nat :=
  (src.map decDigit).takeWhile Option.isSome |>.foldl
    (fun value digit => value * 10 + digit.getD 0) 0

/-- `strtol` to base ten, at most the largest `long`, which has 32 bits. -/
def strtol (src : List UInt8) : Int :=
  match src.dropWhile isSpace with
  | 45 :: digits => max (-2 ^ 31) (-digitsValue digits)
  | 43 :: digits => min (2 ^ 31 - 1) (digitsValue digits)
  | digits => min (2 ^ 31 - 1) (digitsValue digits)

/-- `atoi`; an `int` holds every `long`. -/
def atoi (src : List UInt8) : Int := strtol src

/-- An `int` assigned to an `unsigned short int`. -/
def unsignedShort (number : Int) : UInt16 :=
  UInt16.ofNat (number % 65536).toNat

/-- The elements `get_data` knows. -/
inductive Setting where
  | type
  | ip
  | nodeID
  | nidgw
  | nidcorehome
  | nidcore
  | nidrvs
  | rvsIP
  | rvsTimeout
  | niddns
  | niddht
  | dhtIP
  | dhtPort
  | dht
  | dhcp
  | dns
  | primaryIface
  deriving DecidableEq

namespace Setting

def element : Setting → String
  | type => "type"
  | ip => "ip"
  | nodeID => "nodeID"
  | nidgw => "nidgw"
  | nidcorehome => "nidcorehome"
  | nidcore => "nidcore"
  | nidrvs => "nidrvs"
  | rvsIP => "rvsIP"
  | rvsTimeout => "rvsTimeout"
  | niddns => "niddns"
  | niddht => "niddht"
  | dhtIP => "dhtIP"
  | dhtPort => "dhtPort"
  | dht => "dht"
  | dhcp => "dhcp"
  | dns => "dns"
  | primaryIface => "primaryIface"

def all : List Setting :=
  [type, ip, nodeID, nidgw, nidcorehome, nidcore, nidrvs, rvsIP, rvsTimeout,
    niddns, niddht, dhtIP, dhtPort, dht, dhcp, dns, primaryIface]

def ofName (name : String) : Option Setting :=
  all.find? fun setting => setting.element = name

/-- Read only while the type is that of a core node. -/
def coreOnly : Setting → Bool
  | niddht | dhtIP | dhtPort | dht => true
  | _ => false

/-- An element without content does not end the program. -/
def optional : Setting → Bool
  | dht | dhcp | dns => true
  | _ => false

/-- The variables of a setting.  `nodeID` sets `nid` and `nid32`, and `niddns`
the server address of the DNS handler too; `ip` sets `gatewayIP`, and the
others the variable of their name. -/
def Value : Setting → Type
  | type | rvsTimeout | dhtPort | dht | dhcp | dns => UInt16
  | ip | rvsIP | dhtIP => NID32
  | nidgw | nidcorehome | nidcore | nidrvs | niddht => NID
  | nodeID => NID × NID32
  | niddns => NID × List UInt8
  | primaryIface => Buffer 32

/-- What becomes of the variables.  An address which cannot be read leaves
them; a name which is too long for its array leaves nothing. -/
def store : (setting : Setting) → List UInt8 → setting.Value →
    Option setting.Value
  | type, data, _ | rvsTimeout, data, _ | dhtPort, data, _ | dht, data, _
  | dhcp, data, _ | dns, data, _ => some (unsignedShort (atoi data))
  | ip, data, old | rvsIP, data, old | dhtIP, data, old =>
      some ((inetPtonNID32 data).getD old)
  | nidgw, data, old | nidcorehome, data, old | nidcore, data, old
  | nidrvs, data, old | niddht, data, old => some ((inetPton6 data).getD old)
  | nodeID, data, old =>
      let nid := (inetPton6 data).getD old.1
      some (nid, setNID32 nid)
  | niddns, data, old =>
      let niddns := (inetPton6 data).getD old.1
      some (niddns, inetNtop4 (dnsNid32 niddns))
  | primaryIface, data, _ => (Buffer.zero 32).write 0 (data ++ [0])

end Setting

/-- All variables, by the setting which sets them. -/
abbrev Variables := (setting : Setting) → setting.Value

/-- Static variables start with zeros. -/
def Variables.initial : Variables
  | .type | .rvsTimeout | .dhtPort | .dht | .dhcp | .dns => (0 : UInt16)
  | .ip | .rvsIP | .dhtIP => NID32.zero
  | .nidgw | .nidcorehome | .nidcore | .nidrvs | .niddht => NID.zero
  | .nodeID => (NID.zero, NID32.zero)
  | .niddns => (NID.zero, ([] : List UInt8))
  | .primaryIface => Buffer.zero 32

/-- `CORE` of `enum node_types`. -/
def coreType : UInt16 := 3

def Variables.isCore (vars : Variables) : Bool :=
  let type : UInt16 := vars .type
  type = coreType

/-- The branch for one setting; the content that is missing ends the program. -/
def readSetting (setting : Setting) (data : Option (List UInt8))
    (vars : Variables) : Option Variables :=
  if setting.coreOnly && !vars.isCore then some vars
  else
    match data with
    | some data =>
        (setting.store data (vars setting)).map (Function.update vars setting)
    | none => if setting.optional then some vars else none

/-- `xmlNodeGetContent` of the first child. -/
def xmlNodeGetContent (children : List XmlNode) : Option (List UInt8) :=
  children.head?.map XmlNode.content

/-- The branches for an element. -/
def readElement (vars : Variables) (element : XmlNode.Element) :
    Option Variables :=
  match Setting.ofName element.1 with
  | some setting => readSetting setting (xmlNodeGetContent element.2) vars
  | none => some vars

mutual

/-- One round of the loop: the element, if it is one, and its children. -/
def getNode : XmlNode → Variables → Option Variables
  | .element name children, vars => do
      let vars ← readElement vars (name, children)
      getData children vars
  | .text _, vars => some vars
  | .remark _, vars => some vars
  | .reference _ children, vars => getData children vars

def getData : List XmlNode → Variables → Option Variables
  | [], vars => some vars
  | pt :: next, vars => do
      let vars ← getNode pt vars
      getData next vars

end

/-- The root element and what follows it in the document. -/
def readConfig (root_element : List XmlNode) : Option Variables :=
  getData root_element Variables.initial

mutual

theorem getNode_eq (node : XmlNode) (vars : Variables) :
    getNode node vars = (XmlNode.elementsOf node).foldlM readElement vars := by
  cases node with
  | element name children =>
      rw [getNode, XmlNode.elementsOf, List.foldlM_cons]
      congr 1
      funext vars
      exact getData_eq children vars
  | text content =>
      rw [getNode, XmlNode.elementsOf]
      rfl
  | remark content =>
      rw [getNode, XmlNode.elementsOf]
      rfl
  | reference content children =>
      rw [getNode, XmlNode.elementsOf]
      exact getData_eq children vars

theorem getData_eq (nodes : List XmlNode) (vars : Variables) :
    getData nodes vars = (XmlNode.elements nodes).foldlM readElement vars := by
  cases nodes with
  | nil =>
      rw [getData, XmlNode.elements]
      rfl
  | cons node nodes =>
      rw [getData, XmlNode.elements, List.foldlM_append, getNode_eq node vars]
      congr 1
      funext vars
      exact getData_eq nodes vars

end

end NodeIdentity
