import Retrieval.Filter.Codec
import Retrieval.Main
import Retrieval.Proofs.Collection.Crash
import Retrieval.Proofs.Index.Nearest
import Retrieval.Proofs.Store.Restart
import Retrieval.Proofs.Store.Filtered
import Retrieval.Proofs.Disk.Trail
import Retrieval.Proofs.Collection.Creation
import Retrieval.Proofs.Store.Conversation
import Retrieval.Proofs.Store.Numbering
import Retrieval.Proofs.Store.Likeness
import Retrieval.Proofs.Collection.Opening
import Retrieval.Proofs.Store.Failure
import Retrieval.Proofs.Store.Creation
import Retrieval.Proofs.Store.Batch
import Retrieval.Proofs.Store.Report
import Retrieval.Proofs.Index.Euclidean
import Retrieval.Proofs.Filter.Codec
import Retrieval.Proofs.Filter.Comparison
import Retrieval.Proofs.CommandLine.Editing
import Retrieval.Proofs.Metric.Cosine
import Retrieval.Proofs.Ollama.Client
import Retrieval.Proofs.Metric.Symmetry
import Retrieval.Proofs.Store.Sound
import Retrieval.Proofs.Store.Content
