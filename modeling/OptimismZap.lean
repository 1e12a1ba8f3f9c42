import OptimismZap.Client.ContractActions
import OptimismZap.Client.Handshake
import OptimismZap.Contract.CallStack
import OptimismZap.Contract.ChainSwitch
import OptimismZap.Contract.Commutation
import OptimismZap.Contract.Completion
import OptimismZap.Contract.Frame
import OptimismZap.Contract.Holdings
import OptimismZap.Contract.Isolation
import OptimismZap.Contract.Reentrancy
import OptimismZap.Contract.Registry
import OptimismZap.Contract.Renounced
import OptimismZap.Protocol.Roles
