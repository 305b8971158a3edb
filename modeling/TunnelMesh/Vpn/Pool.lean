import Mathlib.Algebra.Order.Group.Nat

namespace TunnelMesh.Vpn

def ipv4Bits : ℕ := 32

def addIPv4 (base offset : ℕ) : ℕ := (base + offset) % 2 ^ ipv4Bits

theorem addIPv4_lt (base offset : ℕ) : addIPv4 base offset < 2 ^ ipv4Bits :=
  Nat.mod_lt _ (Nat.two_pow_pos _)

def octet (ip i : ℕ) : ℕ := ip / 2 ^ (24 - 8 * i) % 256

def ipText (ip : ℕ) : String :=
  ".".intercalate ((List.range 4).map fun i => toString (octet ip i))

structure IPNet where
  ip : ℕ
  ones : ℕ
  ip_lt : ip < 2 ^ ipv4Bits
  deriving DecidableEq

variable (net : IPNet)

def IPNet.text : String := ipText net.ip ++ "/" ++ toString net.ones

def IPNet.size : ℕ := 2 ^ (ipv4Bits - net.ones)

def IPNet.masked : IPNet where
  ip := net.ip / net.size * net.size
  ones := net.ones
  ip_lt := lt_of_le_of_lt (Nat.div_mul_le_self _ _) net.ip_lt

def IPNet.contains (ip : ℕ) : Bool := ip / net.size = net.ip / net.size

structure Error where
  status : ℕ
  code : String
  message : String

def Error.withMessage (e : Error) (message : String) : Error := { e with message }

def errIPPoolInvalid : Error :=
  ⟨400, "vpn_ip_pool_invalid", "vpn ip pool configuration is invalid"⟩

def errIPPoolExhausted : Error := ⟨409, "vpn_ip_pool_exhausted", "vpn ip pool is exhausted"⟩

def poolInvalid (reason : String) : Error :=
  errIPPoolInvalid.withMessage ("vpn ip pool is invalid: " ++ reason)

def isDangerousAddress (ip : ℕ) : Bool :=
  octet ip 0 = 0 || 224 ≤ octet ip 0 || (octet ip 0 = 169 && octet ip 1 = 254) ||
    ip = 169 * 2 ^ 24 + 254 * 2 ^ 16 + 169 * 2 ^ 8 + 254

def maxNodeSubnets : ℕ := 4096
def maxNodeSubnetBits : ℕ := 30
def maxPoolBits : ℕ := 24

structure Pool where
  network : IPNet
  size : ℕ
  ones_le : network.ones ≤ maxPoolBits
  ones_lt : network.ones < size
  size_le : size ≤ maxNodeSubnetBits
  count_le : 2 ^ (size - network.ones) ≤ maxNodeSubnets
  canonical : network.masked = network

namespace Pool

def count (pool : Pool) : ℕ := 2 ^ (pool.size - pool.network.ones)

def hosts (pool : Pool) : ℕ := 2 ^ (ipv4Bits - pool.size)

def subnets (pool : Pool) : List IPNet :=
  (List.range pool.count).map fun offset =>
    ⟨addIPv4 pool.network.ip (offset * pool.hosts), pool.size, addIPv4_lt _ _⟩

end Pool

theorem IPNet.masked_masked : net.masked.masked = net.masked := by
  have hpos : 0 < 2 ^ (ipv4Bits - net.ones) := Nat.two_pow_pos _
  simp [IPNet.masked, IPNet.size, Nat.mul_div_cancel _ hpos]

def parsePool (cidr : IPNet) (nodeSubnetSize : ℤ) : Except Error Pool :=
  let network := cidr.masked
  if hwide : maxPoolBits < network.ones then
    .error (poolInvalid
      ("ip_pool " ++ network.text ++ " must be /" ++ toString maxPoolBits ++ " or wider"))
  else if hnarrow : nodeSubnetSize ≤ network.ones then
    .error (poolInvalid
      ("node_subnet_size " ++ toString nodeSubnetSize ++
        " must be narrower than the ip_pool prefix /" ++ toString network.ones))
  else if hbits : (maxNodeSubnetBits : ℤ) < nodeSubnetSize then
    .error (poolInvalid
      ("node_subnet_size " ++ toString nodeSubnetSize ++ " must be /" ++ toString maxNodeSubnetBits ++
        " or wider so a subnet keeps at least two usable addresses"))
  else if hcount : maxNodeSubnets < 2 ^ (nodeSubnetSize.toNat - network.ones) then
    .error (poolInvalid
      ("ip_pool " ++ network.text ++ " with node_subnet_size /" ++ toString nodeSubnetSize ++
        " yields " ++ toString (2 ^ (nodeSubnetSize.toNat - network.ones)) ++
        " subnets, the maximum is " ++ toString maxNodeSubnets))
  else if isDangerousAddress network.ip then
    .error (poolInvalid ("ip_pool " ++ network.text ++ " is in a non-routable or reserved range"))
  else .ok
    { network
      size := nodeSubnetSize.toNat
      ones_le := not_lt.mp hwide
      ones_lt := by omega
      size_le := by omega
      count_le := not_lt.mp hcount
      canonical := cidr.masked_masked }

namespace Pool

def nodeSubnet (pool : Pool) (cidr : IPNet) : Except Error IPNet :=
  let network := cidr.masked
  if cidr.ip ≠ network.ip then
    .error (poolInvalid
      ("subnet " ++ cidr.text ++ " is not canonical, the network address is " ++ network.text))
  else if network.ones ≠ pool.size then
    .error (poolInvalid
      ("subnet " ++ network.text ++ " has prefix /" ++ toString network.ones ++
        ", this node uses /" ++ toString pool.size))
  else if pool.network.contains network.ip = false then
    .error (poolInvalid
      ("subnet " ++ network.text ++ " is not inside ip_pool " ++ pool.network.text))
  else .ok network

-- The addresses a peer may get are those after the network address and the
-- address of the node, and before the broadcast address.
def lastOffset (pool : Pool) : ℕ := pool.hosts - 2

def noFreeAddress (subnet : IPNet) : Error :=
  errIPPoolExhausted.withMessage ("subnet " ++ subnet.text ++ " has no free address left")

end Pool

theorem IPNet.masked_of_dvd {net : IPNet} (hdvd : net.size ∣ net.ip) : net.masked = net := by
  cases net with
  | mk ip ones ip_lt =>
    simp only [IPNet.masked, IPNet.mk.injEq, and_true]
    exact Nat.div_mul_cancel hdvd

namespace Pool

variable (pool : Pool)

def first : IPNet := ⟨pool.network.ip, pool.size, pool.network.ip_lt⟩

theorem subnets_eq_cons : ∃ rest, pool.subnets = pool.first :: rest := by
  obtain ⟨n, hn⟩ : ∃ n, pool.count = n + 1 := Nat.exists_eq_add_one.mpr (Nat.two_pow_pos _)
  have hh : addIPv4 pool.network.ip (0 * pool.hosts) = pool.network.ip := by
    rw [Nat.zero_mul]
    exact Nat.mod_eq_of_lt pool.network.ip_lt
  simp only [subnets, hn, List.range_succ_eq_map, List.map_cons, hh, first]
  exact ⟨_, rfl⟩

theorem size_network : pool.network.size = pool.count * pool.hosts := by
  have hlt := pool.ones_lt
  have hle := pool.size_le
  unfold maxNodeSubnetBits at hle
  unfold IPNet.size count hosts ipv4Bits
  rw [← Nat.pow_add]
  congr 1
  omega

theorem hosts_dvd_network : pool.hosts ∣ pool.network.ip := by
  have hip : pool.network.ip / pool.network.size * pool.network.size = pool.network.ip :=
    congrArg IPNet.ip pool.canonical
  rw [← hip, pool.size_network, ← Nat.mul_assoc]
  exact Nat.dvd_mul_left _ _

theorem masked_first : pool.first.masked = pool.first :=
  IPNet.masked_of_dvd pool.hosts_dvd_network

theorem nodeSubnet_first : pool.nodeSubnet pool.first = .ok pool.first := by
  have hi : pool.network.contains pool.first.ip = true := by simp [IPNet.contains, first]
  simp [nodeSubnet, masked_first, hi, show pool.first.ones = pool.size from rfl]

end Pool

end TunnelMesh.Vpn
