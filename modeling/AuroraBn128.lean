import AuroraBn128.Rust
import AuroraBn128.BigEndian
import AuroraBn128.Curve
import AuroraBn128.Points
import AuroraBn128.AddMul
import AuroraBn128.Pair
import AuroraBn128.PairContract
import AuroraBn128.PairCompose
import AuroraBn128.Precompiles
