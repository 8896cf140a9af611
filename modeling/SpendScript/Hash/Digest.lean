import SpendScript.Hash.Ripemd160
import SpendScript.Hash.Sha1
import SpendScript.Hash.Sha256

/-!
# Composed digests
-/

namespace SpendScript.Hash

def hash160 (message : Bytes) : Bytes := ripemd160 (sha256 message)

def hash256 (message : Bytes) : Bytes := sha256 (sha256 message)

end SpendScript.Hash
