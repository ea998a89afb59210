import OtsConsensus.Bytes
import OtsConsensus.State
import OtsConsensus.Lifecycle
import OtsConsensus.Chain
import OtsConsensus.Calendar
import OtsConsensus.Merkle
import OtsConsensus.Json
import OtsConsensus.Encoding
import OtsConsensus.Store
import OtsConsensus.Engine
import OtsConsensus.EngineRun
import OtsConsensus.BlockRules
import OtsConsensus.SysTx
import OtsConsensus.Calldata
import OtsConsensus.JsonParse
import OtsConsensus.Decode
import OtsConsensus.StoreRun
import OtsConsensus.Manager
import OtsConsensus.Txid
import OtsConsensus.Proposals
import OtsConsensus.Replay
import OtsConsensus.Node
