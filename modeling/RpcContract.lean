import RpcContract.Main
import RpcContract.Proofs.CommandLine.Printed
import RpcContract.Proofs.Dispatch.Confinement
import RpcContract.Proofs.Dispatch.Declared
import RpcContract.Proofs.Dispatch.Handwritten
import RpcContract.Proofs.Dispatch.Log
import RpcContract.Proofs.Dispatch.Omission
import RpcContract.Proofs.Dispatch.Outcome
import RpcContract.Proofs.Dispatch.Thread
import RpcContract.Proofs.Manifest.Names
import RpcContract.Proofs.Registry.Refinement
import RpcContract.Proofs.Schema.Cuts
import RpcContract.Proofs.Schema.Lines
import RpcContract.Proofs.Schema.Size
import RpcContract.Proofs.Schema.StringLiteral
import RpcContract.Proofs.Script.Interleaving
import RpcContract.Proofs.Validation.NullRule
import RpcContract.Proofs.Validation.Relevance
import RpcContract.Proofs.Validation.Weakening
import RpcContract.Proofs.Wire.Inverse
import RpcContract.Proofs.Wire.Resolved
import RpcContract.Script.Run
import RpcContract.Task.Machine
import RpcContract.Value.Agreement
