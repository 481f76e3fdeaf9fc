import Nlink.Foundation.Base64
import Nlink.WireguardText

namespace Nlink.Wireguard.Conf

open Foundation Foundation.Text Netlink Network List

/-!
# The configuration files of the `wg` program

A file is read line by line.  A line opens a section or sets a key of the
section that was opened last.  Keys are decoded by a base64 decoder that is a
parameter here.
-/

structure Iface where
  privateKey : Option Key
  listenPort : Option (BitVec 16)
  fwmark : Option (BitVec 32)

structure Peer where
  publicKey : Option Key
  presharedKey : Option Key
  endpoint : Option SocketAddr
  keepalive : Option (BitVec 16)
  allowedIps : List AllowedIp

/-- `Peer::new`. -/
def Peer.new : Peer where
  publicKey := none
  presharedKey := none
  endpoint := none
  keepalive := none
  allowedIps := []

/-- Between two lines: in a section of a peer there is a peer. -/
structure State where
  iface : Iface
  peers : List Peer
  inSection : Section
  opened : inSection = .peer → peers ≠ []

def State.start : State where
  iface := { privateKey := none, listenPort := none, fwmark := none }
  peers := []
  inSection := .none
  opened := by
    intro impossible
    cases impossible

/-- `err`. -/
def err (lineno : Nat) (msg : String) : Error :=
  .invalidMessage ("wg conf: line " ++ toString lineno ++ ": " ++ msg)

section Values

variable (decode : List Char → Except String (List UInt8))

/-- `base64_decode`. -/
def base64Decode (text : List Char) : Except String (List UInt8) :=
  decode (trim text)

/-- `decode_key`. -/
def decodeKey (lineno : Nat) (field : String) (value : List Char) : Except Error Key :=
  match base64Decode decode value with
  | .error error => .error (err lineno ("invalid base64 for " ++ field ++ ": " ++ error))
  | .ok bytes =>
      if length_eq : bytes.length = WG_KEY_LEN then
        .ok { bytes := bytes, length_eq := length_eq }
      else
        .error (err lineno (field ++ " must be 32 bytes, got " ++ toString bytes.length))

/-- `parse_fwmark`. -/
def parseFwmark (lineno : Nat) (value : List Char) : Except Error (BitVec 32) :=
  match fwmarkValue value with
  | .ok mark => .ok (BitVec.ofNat 32 mark)
  | .error _ => .error (err lineno ("invalid FwMark `" ++ String.ofList value ++ "`"))

/-- `ListenPort`. -/
def parseListenPort (lineno : Nat) (value : List Char) : Except Error (BitVec 16) :=
  match parseUint 16 10 value with
  | .ok port => .ok (BitVec.ofNat 16 port)
  | .error _ => .error (err lineno ("invalid ListenPort `" ++ String.ofList value ++ "`"))

/-- `Endpoint`. -/
def parseEndpoint (lineno : Nat) (value : List Char) : Except Error SocketAddr :=
  match parseSocketAddr value with
  | some endpoint => .ok endpoint
  | none =>
      .error (err lineno ("invalid Endpoint `" ++ String.ofList value ++ "` (expected host:port)"))

/-- `parse_keepalive`. -/
def parseKeepalive (lineno : Nat) (value : List Char) : Except Error (Option (BitVec 16)) :=
  if eqIgnoreAsciiCase value "off".toList || value = ['0'] then
    .ok none
  else
    match parseUint 16 10 value with
    | .ok secs => .ok (some (BitVec.ofNat 16 secs))
    | .error _ =>
        .error (err lineno ("invalid PersistentKeepalive `" ++ String.ofList value ++ "`"))

/-- One element of `AllowedIPs`. -/
def parseAllowedIp (lineno : Nat) (cidr : List Char) : Except Error AllowedIp :=
  match splitOnce '/' cidr with
  | none =>
      .error (err lineno ("invalid CIDR `" ++ String.ofList cidr ++ "` (expected addr/prefix)"))
  | some (addrStr, prefixStr) =>
      match parseIpAddr (trim addrStr) with
      | none =>
          .error
            (err lineno ("invalid IP `" ++ String.ofList addrStr ++ "`: invalid IP address syntax"))
      | some addr =>
          match parseUint 8 10 (trim prefixStr) with
          | .error error =>
              .error
                (err lineno ("invalid prefix `" ++ String.ofList prefixStr ++ "`: " ++ error.text))
          | .ok bits =>
              let max := if isIpv4 addr then 32 else 128
              if max < bits then
                .error
                  (err lineno ("prefix " ++ toString bits ++ " exceeds maximum " ++
                      toString max ++ " for " ++ showIpAddr addr))
              else
                .ok { addr := addr, cidr := UInt8.ofNat bits }

/-- `parse_allowed_ips`. -/
def parseAllowedIps (lineno : Nat) (value : List Char) : Except Error (List AllowedIp) :=
  (split ',' value).foldlM
    (fun out cidr => do
      let cidr := trim cidr
      if cidr = [] then
        return out
      else
        let ip ← parseAllowedIp lineno cidr
        return out ++ [ip])
    []

end Values

section Lines

variable (decode : List Char → Except String (List UInt8))

def Iface.set (iface : Iface) (lineno : Nat) (key : String) (value : List Char) :
    Except Error Iface :=
  match key with
  | "privatekey" => do
      let privateKey ← decodeKey decode lineno "PrivateKey" value
      return { iface with privateKey := some privateKey }
  | "listenport" => do
      let port ← parseListenPort lineno value
      return { iface with listenPort := some port }
  | "fwmark" => do
      let mark ← parseFwmark lineno value
      return { iface with fwmark := some mark }
  | other =>
      .error
        (err lineno ("unknown [Interface] key `" ++ other ++
            "` (supported: PrivateKey, " ++
            "ListenPort, FwMark — wg-quick keys like Address/DNS/MTU are " ++
            "not handled by setconf; use wg-quick)"))

def Peer.set (peer : Peer) (lineno : Nat) (key : String) (value : List Char) : Except Error Peer :=
  match key with
  | "publickey" => do
      let publicKey ← decodeKey decode lineno "PublicKey" value
      return { peer with publicKey := some publicKey }
  | "presharedkey" => do
      let presharedKey ← decodeKey decode lineno "PresharedKey" value
      return { peer with presharedKey := some presharedKey }
  | "endpoint" => do
      let endpoint ← parseEndpoint lineno value
      return { peer with endpoint := some endpoint }
  | "allowedips" => do
      let allowedIps ← parseAllowedIps lineno value
      return { peer with allowedIps := allowedIps }
  | "persistentkeepalive" => do
      let keepalive ← parseKeepalive lineno value
      return { peer with keepalive := keepalive }
  | other =>
      .error
        (err lineno ("unknown [Peer] key `" ++ other ++ "` (supported: PublicKey, " ++
            "PresharedKey, Endpoint, AllowedIPs, PersistentKeepalive)"))

def State.openSection (state : State) (lineno : Nat) (name : String) : Except Error State :=
  match name with
  | "interface" =>
      .ok
        { state with
          inSection := .interface
          opened := by
            intro impossible
            cases impossible }
  | "peer" =>
      .ok
        { state with
          peers := state.peers ++ [Peer.new]
          inSection := .peer
          opened := fun _ => concat_ne_nil _ _ }
  | other => .error (err lineno ("unknown section `[" ++ other ++ "]`"))

def State.setKey (state : State) (lineno : Nat) (key : String) (value : List Char) :
    Except Error State :=
  match place : state.inSection with
  | .none => .error (err lineno ("`" ++ key ++ "` appears before any [Interface]/[Peer] section"))
  | .interface => do
      let iface ← state.iface.set decode lineno key value
      return { state with iface := iface }
  | .peer => do
      let peer ← (state.peers.getLast (state.opened place)).set decode lineno
        key value
      return { state with
        peers := state.peers.dropLast ++ [peer]
        opened := fun _ => concat_ne_nil _ _ }

/-- One round of the loop of `parse`. -/
def parseLine (state : State) (numbered : List Char × Nat) : Except Error State :=
  let lineno := numbered.2
  let line := trim (numbered.1.takeWhile (· ≠ '#'))
  if line = [] then
    .ok state
  else
    match stripPrefix ['['] line with
    | some stripped =>
        match stripSuffix ']' stripped with
        | none => .error (err lineno ("malformed section header `" ++ String.ofList line ++ "`"))
        | some name => state.openSection lineno (String.ofList (toAsciiLowercase (trim name)))
    | none =>
        match splitOnce '=' line with
        | none => .error (err lineno ("expected `Key = Value`, got `" ++ String.ofList line ++ "`"))
        | some (key, value) =>
            state.setKey decode lineno (String.ofList (toAsciiLowercase (trim key))) (trim value)

end Lines

/-- The declaration of a peer, if it has a public key. -/
def Peer.declare (numbered : Peer × Nat) : Except Error DeclaredWgPeer :=
  let peer := numbered.1
  match peer.publicKey with
  | none =>
      .error
        (.invalidMessage
          ("wg conf: [Peer] #" ++ toString (numbered.2 + 1) ++ " is missing a PublicKey"))
  | some publicKey =>
      .ok
        { publicKey := publicKey
          presharedKey := peer.presharedKey
          endpoint := peer.endpoint
          persistentKeepalive := peer.keepalive.map fun secs => .fromSecs secs.toNat
          allowedIps := peer.allowedIps }

/-- `parse`. -/
def parse (decode : List Char → Except String (List UInt8))
    (contents ifname : String) : Except Error WireguardConfig := do
  let state ← ((lines contents.toList).zipIdx 1).foldlM (parseLine decode)
    State.start
  let peers ← state.peers.zipIdx.mapM Peer.declare
  let device : DeclaredWgDevice :=
    { ifname := ifname
      privateKey := state.iface.privateKey
      listenPort := state.iface.listenPort
      fwmark := state.iface.fwmark
      peers := peers }
  return { devices := [device] }

end Nlink.Wireguard.Conf

namespace Nlink.Wireguard.Quick

open Foundation Foundation.Text Netlink Network List

/-!
## The configuration files of the library

The library has a parser and a base64 decoder of its own.  It ignores the keys
that only `wg-quick` uses.
-/

section Values

/-- The loop of `b64_decode_32`: the bits that are pending, how many they are,
and the bytes so far. -/
def b64Loop : List Char → Nat → Nat → List UInt8 → Option (List UInt8)
  | [], _, _, out => some out
  | ch :: rest, buf, bits, out =>
      match Base64.valueOf ch with
      | none => none
      | some v =>
          let buf := (buf <<< 6 ||| v) % 2 ^ 32
          let bits := bits + 6
          if 8 ≤ bits then
            let bits := bits - 8
            let out := out ++ [UInt8.ofNat (buf >>> bits &&& 0xff)]
            if out.length = WG_KEY_LEN then some out else b64Loop rest buf bits out
          else
            b64Loop rest buf bits out

/-- `b64_decode_32`. -/
def b64Decode32 (text : List Char) : Option Key :=
  let trimmed := text.rdropWhile (· = '=')
  if (trimmed.map Char.utf8Size).sum ≠ 43 then
    none
  else
    match b64Loop trimmed 0 0 [] with
    | none => none
    | some out =>
        if length_eq : out.length = WG_KEY_LEN then
          some { bytes := out, length_eq := length_eq }
        else
          none

/-- `parse_key`. -/
def parseKey (field : String) (value : List Char) : Except Error Key :=
  match b64Decode32 value with
  | some key => .ok key
  | none => .error (.invalidMessage ("wireguard config: invalid " ++ field ++ " key"))

/-- `parse_cidr`. -/
def parseCidr (text : List Char) : Except Error AllowedIp :=
  let text := trim text
  let (addrStr, cidrStr) :=
    match splitOnce '/' text with
    | some (addr, cidr) => (addr, some cidr)
    | none => (text, none)
  match parseIpAddr addrStr with
  | none =>
      .error (.invalidMessage ("wireguard config: invalid IP `" ++ String.ofList addrStr ++ "`"))
  | some addr =>
      let max := if isIpv4 addr then 32 else 128
      let bits : Except Error Nat :=
        match cidrStr with
        | none => .ok max
        | some cidr =>
            match parseUint 8 10 cidr with
            | .ok bits => .ok bits
            | .error _ =>
                .error
                  (.invalidMessage
                    ("wireguard config: invalid prefix `" ++ String.ofList cidr ++ "`"))
      match bits with
      | .error error => .error error
      | .ok bits =>
          if max < bits then
            .error
              (.invalidMessage
                ("wireguard config: prefix /" ++ toString bits ++ " out of range for " ++
                  (if isIpv4 addr then "IPv4" else "IPv6") ++ " (max /" ++
                  toString max ++ ")"))
          else
            .ok { addr := addr, cidr := UInt8.ofNat (min bits max) }

/-- `parse_fwmark`. -/
def parseFwmark (value : List Char) : Except Error (BitVec 32) :=
  match fwmarkValue value with
  | .ok mark => .ok (BitVec.ofNat 32 mark)
  | .error _ =>
      .error (.invalidMessage ("wireguard config: invalid FwMark `" ++ String.ofList value ++ "`"))

/-- `ListenPort`. -/
def parseListenPort (value : List Char) : Except Error (BitVec 16) :=
  match parseUint 16 10 value with
  | .ok port => .ok (BitVec.ofNat 16 port)
  | .error _ =>
      .error
        (.invalidMessage ("wireguard config: invalid ListenPort `" ++ String.ofList value ++ "`"))

/-- `Endpoint`. -/
def parseEndpoint (value : List Char) : Except Error SocketAddr :=
  match parseSocketAddr value with
  | some endpoint => .ok endpoint
  | none =>
      .error
        (.invalidMessage ("wireguard config: Endpoint `" ++ String.ofList value ++
            "` must be IP:port (hostnames are not resolved)"))

/-- `AllowedIPs`: the elements are pushed behind those that are there. -/
def pushAllowedIps (allowedIps : List AllowedIp) (value : List Char) :
    Except Error (List AllowedIp) :=
  (split ',' value).foldlM
    (fun allowedIps part => do
      let part := trim part
      if part = [] then
        return allowedIps
      else
        let ip ← parseCidr part
        return allowedIps ++ [ip])
    allowedIps

/-- `PersistentKeepalive`: nothing changes when it is off. -/
def setKeepalive (keepalive : Option Duration) (value : List Char) :
    Except Error (Option Duration) :=
  if eqIgnoreAsciiCase value "off".toList then
    .ok keepalive
  else
    match parseUint 16 10 value with
    | .error _ =>
        .error
          (.invalidMessage
            ("wireguard config: invalid PersistentKeepalive `" ++ String.ofList value ++ "`"))
    | .ok secs => if secs ≠ 0 then .ok (some (.fromSecs secs)) else .ok keepalive

end Values

section Lines

/-- The keys that only `wg-quick` uses. -/
def IGNORED_INTERFACE_KEYS : List String :=
  ["address", "dns", "mtu", "table", "preup", "postup", "predown", "postdown", "saveconfig"]

/-- A peer of which nothing is known yet. -/
def newPeer : DeclaredWgPeer where
  publicKey := Key.zero
  presharedKey := none
  endpoint := none
  persistentKeepalive := none
  allowedIps := []

/-- Between two lines: in a section of a peer there is a current peer. -/
structure State where
  device : DeclaredWgDevice
  currentPeer : Option DeclaredWgPeer
  inSection : Section
  opened : inSection = .peer → currentPeer.isSome

def State.start (ifname : String) : State where
  device :=
    { ifname := ifname
      privateKey := none
      listenPort := none
      fwmark := none
      peers := [] }
  currentPeer := none
  inSection := .none
  opened := by
    intro impossible
    cases impossible

/-- A key of the interface; the key is as it stands in the line. -/
def setInterface (device : DeclaredWgDevice) (lineno : Nat) (key value : List Char) :
    Except Error DeclaredWgDevice :=
  match String.ofList (toAsciiLowercase key) with
  | "privatekey" => do
      let privateKey ← parseKey "PrivateKey" value
      return { device with privateKey := some privateKey }
  | "listenport" => do
      let port ← parseListenPort value
      return { device with listenPort := some port }
  | "fwmark" => do
      let mark ← parseFwmark value
      return { device with fwmark := some mark }
  | other =>
      if other ∈ IGNORED_INTERFACE_KEYS then
        .ok device
      else
        .error
          (.invalidMessage ("wireguard config: unknown [Interface] key `" ++
              String.ofList key ++ "` (line " ++ toString lineno ++ ")"))

/-- A key of a peer; the key is as it stands in the line. -/
def setPeer (peer : DeclaredWgPeer) (lineno : Nat) (key value : List Char) :
    Except Error DeclaredWgPeer :=
  match String.ofList (toAsciiLowercase key) with
  | "publickey" => do
      let publicKey ← parseKey "PublicKey" value
      return { peer with publicKey := publicKey }
  | "presharedkey" => do
      let presharedKey ← parseKey "PresharedKey" value
      return { peer with presharedKey := some presharedKey }
  | "endpoint" => do
      let endpoint ← parseEndpoint value
      return { peer with endpoint := some endpoint }
  | "allowedips" => do
      let allowedIps ← pushAllowedIps peer.allowedIps value
      return { peer with allowedIps := allowedIps }
  | "persistentkeepalive" => do
      let keepalive ← setKeepalive peer.persistentKeepalive value
      return { peer with persistentKeepalive := keepalive }
  | _ =>
      .error
        (.invalidMessage ("wireguard config: unknown [Peer] key `" ++ String.ofList key ++
            "` (line " ++ toString lineno ++ ")"))

/-- The peers of the device with the current one behind them. -/
def State.allPeers (state : State) : List DeclaredWgPeer :=
  state.device.peers ++ state.currentPeer.toList

def State.openSection (state : State) (lineno : Nat) (name : String) : Except Error State :=
  match name with
  | "interface" =>
      .ok
        { state with
          inSection := .interface
          opened := by
            intro impossible
            cases impossible }
  | "peer" =>
      .ok
        { device := { state.device with peers := state.allPeers }
          currentPeer := some newPeer
          inSection := .peer
          opened := fun _ => rfl }
  | other =>
      .error
        (.invalidMessage
          ("wireguard config: unknown section `[" ++ other ++ "]` at line " ++ toString lineno))

def State.setKey (state : State) (lineno : Nat) (key value : List Char) : Except Error State :=
  match place : state.inSection with
  | .none =>
      .error
        (.invalidMessage ("wireguard config: key `" ++ String.ofList key ++
            "` before any [Interface]/[Peer] section (line " ++
            toString lineno ++ ")"))
  | .interface => do
      let device ← setInterface state.device lineno key value
      return { state with device := device }
  | .peer => do
      let peer ← setPeer (state.currentPeer.get (state.opened place)) lineno
        key value
      return { state with currentPeer := some peer, opened := fun _ => rfl }

def sectionName (line : List Char) : Option (List Char) :=
  (stripPrefix ['['] line).bind (stripSuffix ']')

/-- One round of the loop of `parse_wg_quick`. -/
def parseLine (state : State) (numbered : List Char × Nat) : Except Error State :=
  let lineno := numbered.2
  let line := trim (numbered.1.takeWhile (· ≠ '#'))
  if line = [] then
    .ok state
  else
    match sectionName line with
    | some name => state.openSection lineno (String.ofList (toAsciiLowercase (trim name)))
    | none =>
        match splitOnce '=' line with
        | none =>
            .error
              (.invalidMessage ("wireguard config: expected `key = value` at line " ++
                  toString lineno ++ ": `" ++ String.ofList line ++ "`"))
        | some (key, value) => state.setKey lineno (trim key) (trim value)

end Lines

/-- A peer must have a public key. -/
def checkPeer (numbered : DeclaredWgPeer × Nat) : Except Error Unit :=
  if numbered.1.publicKey = Key.zero then
    .error
      (.invalidMessage
        ("wireguard config: [Peer] #" ++ toString (numbered.2 + 1) ++ " is missing PublicKey"))
  else
    .ok ()

/-- `parse_wg_quick`. -/
def parseWgQuick (ifname contents : String) : Except Error WireguardConfig := do
  let state ← ((lines contents.toList).zipIdx 1).foldlM parseLine
    (State.start ifname)
  let device := { state.device with peers := state.allPeers }
  device.peers.zipIdx.forM checkPeer
  return { devices := [device] }

end Nlink.Wireguard.Quick

namespace Nlink.Wireguard

open Foundation Foundation.Text Netlink Network List

/-!
## Keys as texts

The encoding of a key is ten groups of three bytes and a group of two.  The
library's decoder shifts six bits at a time into a word and takes a byte from it
whenever there are eight.
-/

section Keys

/-- The characters of bytes of which two are left over, without padding. -/
def body : List UInt8 → List Char
  | first :: second :: third :: rest => Base64.quad first second third ++ body rest
  | [first, second] => Base64.triple first second
  | _ => []

variable {rest : List Char} {out : List UInt8} {ch : Char} {v : Nat}

theorem or_eq_add (small : v < 64) (buf : Nat) : (buf <<< 6 ||| v) = buf * 64 + v := by
  rw [← Nat.shiftLeft_add_eq_or_of_lt (show v < 2 ^ 6 from small), Nat.shiftLeft_eq]

theorem b64Loop_keep (value : Base64.valueOf ch = some v) (small : v < 64) (buf : Nat) :
    Quick.b64Loop (ch :: rest) buf 0 out = Quick.b64Loop rest ((buf * 64 + v) % 2 ^ 32) 6 out := by
  rw [Quick.b64Loop, value]
  simp only [or_eq_add small]
  rfl

theorem b64Loop_emit (value : Base64.valueOf ch = some v) (small : v < 64) {buf bits : Nat}
    (enough : 8 ≤ bits + 6) (byte : UInt8)
    (isByte : (buf * 64 + v) % 2 ^ 32 / 2 ^ (bits + 6 - 8) % 256 = byte.toNat) :
    Quick.b64Loop (ch :: rest) buf bits out =
      if out.length + 1 = WG_KEY_LEN then
        some (out ++ [byte])
      else
        Quick.b64Loop rest ((buf * 64 + v) % 2 ^ 32) (bits + 6 - 8) (out ++ [byte]) := by
  have low : ∀ number : Nat, number &&& 0xff = number % 256 := fun number =>
    Nat.and_two_pow_sub_one_eq_mod number 8
  rw [Quick.b64Loop, value]
  simp only [or_eq_add small, Nat.shiftRight_eq_div_pow, low, isByte, if_pos enough,
    UInt8.ofNat_toNat, length_append, length_singleton]

theorem b64Loop_quad (first second third : UInt8) (buf : Nat) (room : out.length + 3 < WG_KEY_LEN) :
    ∃ later, Quick.b64Loop (Base64.quad first second third ++ rest) buf 0 out =
      Quick.b64Loop rest later 0 (out ++ [first, second, third]) := by
  obtain ⟨one, two, three, four⟩ := Base64.quad_small first second third
  have firstBound := first.toNat_lt
  have secondBound := second.toNat_lt
  have thirdBound := third.toNat_lt
  rw [WG_KEY_LEN] at room
  rw [Base64.quad, cons_append, cons_append, cons_append,
    cons_append, List.nil_append,
    b64Loop_keep (Base64.valueOf_charOf one) one,
    b64Loop_emit (Base64.valueOf_charOf two) two (by decide) first (by omega),
    if_neg (by rw [WG_KEY_LEN]; omega),
    b64Loop_emit (Base64.valueOf_charOf three) three (by decide) second (by omega),
    if_neg (by rw [WG_KEY_LEN, length_append, length_singleton]; omega),
    b64Loop_emit (Base64.valueOf_charOf four) four (by decide) third (by omega),
    if_neg (by
      rw [WG_KEY_LEN, length_append, length_append, length_singleton, length_singleton]
      omega)]
  exact ⟨_, by simp only [List.append_assoc]; rfl⟩

theorem b64Loop_triple (first second : UInt8) (buf : Nat) (full : out.length + 2 = WG_KEY_LEN) :
    Quick.b64Loop (Base64.triple first second) buf 0 out = some (out ++ [first, second]) := by
  obtain ⟨one, two, three, _⟩ := Base64.quad_small first second 0
  have firstBound := first.toNat_lt
  have secondBound := second.toNat_lt
  rw [WG_KEY_LEN] at full
  rw [Base64.triple, Base64.quad, take_succ_cons, take_succ_cons,
    take_succ_cons, take_zero,
    b64Loop_keep (Base64.valueOf_charOf one) one,
    b64Loop_emit (Base64.valueOf_charOf two) two (by decide) first (by omega),
    if_neg (by rw [WG_KEY_LEN]; omega),
    b64Loop_emit (Base64.valueOf_charOf three) three
      (by decide) second (by rw [UInt8.toNat_zero]; omega),
    if_pos (by rw [WG_KEY_LEN, length_append, length_singleton]; omega),
    List.append_assoc]
  rfl

@[elab_as_elim]
theorem triples_induction {motive : (bytes : List UInt8) → bytes.length % 3 = 2 → Prop}
    (two : ∀ first second, motive [first, second] rfl)
    (three : ∀ first second third rest shape, motive rest shape →
      motive (first :: second :: third :: rest) (by simp only [length_cons]; omega)) :
    ∀ bytes shape, motive bytes shape
  | [first, second], _ => two first second
  | first :: second :: third :: rest, shape =>
      have restShape : rest.length % 3 = 2 := by
        simp only [length_cons] at shape
        omega
      three first second third rest restShape (triples_induction two three rest restShape)

variable (bytes : List UInt8)

theorem b64Loop_body (shape : bytes.length % 3 = 2) (buf : Nat)
    (full : out.length + bytes.length = WG_KEY_LEN) :
    Quick.b64Loop (body bytes) buf 0 out = some (out ++ bytes) := by
  induction bytes, shape using triples_induction generalizing buf out with
  | two first second => exact b64Loop_triple first second buf full
  | three first second third rest shape ih =>
      simp only [length_cons] at full
      have room : out.length + 3 < WG_KEY_LEN := by omega
      obtain ⟨later, step⟩ := @b64Loop_quad (body rest) out first second third buf room
      have restFull : (out ++ [first, second, third]).length + rest.length =
          WG_KEY_LEN := by
        simp only [length_append, length_cons, length_nil]
        omega
      rw [body, step, ih later restFull, List.append_assoc]
      rfl

theorem encode_eq_body (shape : bytes.length % 3 = 2) :
    Base64.encode bytes = body bytes ++ ['='] := by
  induction bytes, shape using triples_induction with
  | two first second => rfl
  | three first second third rest shape ih => rw [Base64.encode, ih, body, List.append_assoc]

theorem body_spec (shape : bytes.length % 3 = 2) :
    (∀ ch ∈ body bytes, ch.utf8Size = 1 ∧ ch ≠ '=') ∧
      3 * ((body bytes).length + 1) = 4 * (bytes.length + 1) := by
  have quads : ∀ first second third,
      ∀ ch ∈ Base64.quad first second third, ch.utf8Size = 1 ∧ ch ≠ '=' := by
    intro first second third ch member
    obtain ⟨one, two, three, four⟩ := Base64.quad_small first second third
    simp only [Base64.quad, mem_cons, not_mem_nil, or_false] at member
    rcases member with rfl | rfl | rfl | rfl
    · exact Base64.charOf_spec one
    · exact Base64.charOf_spec two
    · exact Base64.charOf_spec three
    · exact Base64.charOf_spec four
  induction bytes, shape using triples_induction with
  | two first second =>
      exact ⟨fun ch member => quads first second 0 ch (mem_of_mem_take member), rfl⟩
  | three first second third rest shape ih =>
      obtain ⟨chars, length⟩ := ih
      refine ⟨fun ch member => ?_, ?_⟩
      · rcases mem_append.mp member with here | later
        · exact quads first second third ch here
        · exact chars ch later
      · rw [body, length_append]
        simp only [Base64.quad, length_cons, length_nil]
        omega

theorem b64Decode32_encode (key : Key) :
    Quick.b64Decode32 (Base64.encode key.bytes) = some key := by
  have length := key.length_eq
  rw [WG_KEY_LEN] at length
  have shape : key.bytes.length % 3 = 2 := by rw [length]
  obtain ⟨chars, bodyLength⟩ := body_spec key.bytes shape
  have trimmed : (Base64.encode key.bytes).rdropWhile (fun ch => ch = '=') = body key.bytes := by
    rw [encode_eq_body _ shape, rdropWhile_concat_pos _ _ _ (by decide), rdropWhile_eq_self_iff]
    intro nonempty padding
    exact (chars _ (getLast_mem nonempty)).2 (of_decide_eq_true padding)
  have size : ((body key.bytes).map Char.utf8Size).sum = 43 := by
    have ones : (body key.bytes).map Char.utf8Size = (body key.bytes).map fun _ => 1 :=
      map_congr_left fun ch member => (chars ch member).1
    rw [ones, map_const', sum_replicate_nat]
    omega
  have decoded : Quick.b64Loop (body key.bytes) 0 0 [] = some key.bytes :=
    b64Loop_body key.bytes shape 0 (by rw [length]; rfl)
  rw [Quick.b64Decode32]
  simp only [trimmed, size, decoded, dif_pos key.length_eq]
  rfl

end Keys

end Nlink.Wireguard
