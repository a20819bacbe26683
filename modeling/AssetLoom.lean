import AssetLoom.Compiler.Manifest
import AssetLoom.Config.Load
import AssetLoom.Proofs.Conduct
import AssetLoom.Proofs.Frozen
import AssetLoom.Proofs.Output
import AssetLoom.Proofs.Planning
import AssetLoom.Proofs.Recovery
import AssetLoom.Proofs.Termination
import AssetLoom.Proofs.Trail
import AssetLoom.Proofs.Traversal
import AssetLoom.Session
import AssetLoom.Proofs.Aloof
import AssetLoom.Proofs.Stages
import AssetLoom.Proofs.Objection
import AssetLoom.Proofs.Blame
import AssetLoom.Proofs.Truth
import AssetLoom.Proofs.Links
import AssetLoom.Proofs.Quoting
import AssetLoom.Proofs.Locality
import AssetLoom.Proofs.Footprint
import AssetLoom.Proofs.Expressions
import AssetLoom.Proofs.InlineScripts
import AssetLoom.Proofs.Tags
import AssetLoom.Proofs.TagPattern
import AssetLoom.Proofs.ExpressionPatterns
import AssetLoom.Proofs.Bytes
import AssetLoom.Proofs.CommentPattern
import AssetLoom.Proofs.Edits
import AssetLoom.Proofs.Location
import AssetLoom.Proofs.Directory
import AssetLoom.Proofs.Explicit
import AssetLoom.Proofs.Destination
import AssetLoom.Proofs.Validation
import AssetLoom.Proofs.Ancestors
import AssetLoom.Proofs.Greedy
