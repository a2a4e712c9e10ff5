import DownloadCache.Main
import DownloadCache.Machine
import DownloadCache.Proofs.Cache.Budget
import DownloadCache.Proofs.Cache.Integrity
import DownloadCache.Proofs.Cache.Ownership
import DownloadCache.Proofs.Cache.Shelving
import DownloadCache.Proofs.FileSystem.Meeting
import DownloadCache.Proofs.Cache.OrphanSafety
import DownloadCache.Proofs.Cache.Shedding
import DownloadCache.Proofs.Cache.Rejection
import DownloadCache.Proofs.Cache.Takeover
import DownloadCache.Proofs.Cache.Sweeping
import DownloadCache.Proofs.Cache.Inclusion
import DownloadCache.Proofs.Cache.Leftovers
import DownloadCache.Proofs.Cache.Turnover
import DownloadCache.Proofs.Cache.Indifference
import DownloadCache.Proofs.Wire.RoundTrip
import DownloadCache.Proofs.Wire.Session
import DownloadCache.Proofs.FileSystem.Ways
import DownloadCache.Proofs.Cache.Transfer
import DownloadCache.Proofs.FileSystem.Following
import DownloadCache.Proofs.Cache.Lengths
import DownloadCache.Proofs.Cache.Reporting
import DownloadCache.Proofs.Cache.Acceptance
import DownloadCache.Proofs.Wire.Tolerance
import DownloadCache.Proofs.ByteSize
import DownloadCache.Proofs.CommandLine
import DownloadCache.Proofs.Json.Chaining
import DownloadCache.Proofs.Json.Skipping
import DownloadCache.Proofs.Json.Members
import DownloadCache.Proofs.Json.Drafting
import DownloadCache.Proofs.Config.Layers
import DownloadCache.Proofs.Json.Nesting
import DownloadCache.Proofs.Json.NumberToken
import DownloadCache.Proofs.Json.Tagging
import DownloadCache.Proofs.Wire.Sizes
import DownloadCache.Proofs.Cache.Choice
import DownloadCache.Proofs.FileSystem.Binding
import DownloadCache.Proofs.Starting
