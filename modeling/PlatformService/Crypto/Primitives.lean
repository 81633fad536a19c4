import PlatformService.Lib.Bytes

/-!
# Cryptographic primitives

`sha256.c`, `hmac.c`, `kdf.c` and `ct.c` pass their arguments to OpenSSL, which is
not part of the repository. The functions it computes are a parameter of the
development, with the sizes of the buffers the wrappers hand it as fields.
Comparison in constant time is equality of equally long strings.

`ps_rand_bytes` is what a caller draws: bytes that fill its buffer, or nothing when
the generator fails. A caller that hashes what it drew sees a failing digest as a
failing generator.
-/

namespace PlatformService.Crypto

/-- The OpenSSL functions the service uses. -/
structure Primitives where
  /-- `ps_sha256` -/
  sha256 : Bytes → Bytes
  /-- `ps_hmac_sha256` of a key and a text -/
  hmacSha256 : Bytes → Bytes → Bytes
  /-- `ps_kdf_derive` of a password, a salt and an iteration count -/
  kdfDerive : Bytes → Bytes → Int → Option Bytes
  /-- `PS_HMAC_SHA256_LEN` -/
  length_hmacSha256 : ∀ key text, (hmacSha256 key text).length = 32

/-- What `ps_rand_bytes` writes into a buffer of `size` octets. -/
structure Drawn (size : Nat) where
  bytes : Bytes
  /-- The buffer is filled. -/
  fills : bytes.length = size
  deriving DecidableEq, Repr

end PlatformService.Crypto
