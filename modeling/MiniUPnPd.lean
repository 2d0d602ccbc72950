import MiniUPnPd.AnyPortSearch
import MiniUPnPd.AsyncSendto
import MiniUPnPd.CallbackUrls
import MiniUPnPd.CodeLength
import MiniUPnPd.ControllerAnswers
import MiniUPnPd.DeleteResults
import MiniUPnPd.DescriptionBuffers
import MiniUPnPd.EntryWalk
import MiniUPnPd.EventDelivery
import MiniUPnPd.EventLinks
import MiniUPnPd.EventSubscriptions
import MiniUPnPd.ExternalPortSearch
import MiniUPnPd.FailedCalls
import MiniUPnPd.FilterRules
import MiniUPnPd.FinalSendto
import MiniUPnPd.GenXml
import MiniUPnPd.HttpDelivery
import MiniUPnPd.HttpSplits
import MiniUPnPd.Ipf.DescriptionList
import MiniUPnPd.Ipf.Ipfrdr
import MiniUPnPd.JwtTokens
import MiniUPnPd.LanAddresses
import MiniUPnPd.LearnDscp
import MiniUPnPd.LeaseExpiry
import MiniUPnPd.LeaseParsing
import MiniUPnPd.LeaseReload
import MiniUPnPd.LeaseRemoval
import MiniUPnPd.LeaseRestart
import MiniUPnPd.Lib.CBuffer
import MiniUPnPd.Lib.CyclicSearch
import MiniUPnPd.Lib.HeaderFields
import MiniUPnPd.Lib.Inet6
import MiniUPnPd.Lib.OutputBuffer
import MiniUPnPd.Lib.Presence
import MiniUPnPd.Lib.Reads
import MiniUPnPd.LinkHash
import MiniUPnPd.MainLoop
import MiniUPnPd.MappingEntry
import MiniUPnPd.MappingEvents
import MiniUPnPd.MappingLaws
import MiniUPnPd.MappingTable
import MiniUPnPd.MinixmlReads
import MiniUPnPd.NatPmpRemovals
import MiniUPnPd.NetfilterNft.FailedDeletions
import MiniUPnPd.NetfilterNft.ForwardRules
import MiniUPnPd.NetfilterNft.LeaseTimes
import MiniUPnPd.NetfilterNft.PinholeMapRuns
import MiniUPnPd.NetfilterNft.RuleReadBack
import MiniUPnPd.OptionsFile
import MiniUPnPd.PcpDeletions
import MiniUPnPd.PcpNonces
import MiniUPnPd.PcpOptions
import MiniUPnPd.PcpPreferFailure
import MiniUPnPd.PcpThirdParty
import MiniUPnPd.PermissionLines
import MiniUPnPd.PfMappings
import MiniUPnPd.PinholeChain
import MiniUPnPd.PinholeCleaning
import MiniUPnPd.PinholeLeases
import MiniUPnPd.PinholeOwners
import MiniUPnPd.PinholeRenewal
import MiniUPnPd.PinholeUids
import MiniUPnPd.PortMappingList
import MiniUPnPd.PortsInRange
import MiniUPnPd.RepeatedRedirect
import MiniUPnPd.RequestBuffer
import MiniUPnPd.ResponseHeaders
import MiniUPnPd.RuleCleaning
import MiniUPnPd.SdnDeletion
import MiniUPnPd.SdnPortmappings
import MiniUPnPd.SdnProtocols
import MiniUPnPd.SdnRules
import MiniUPnPd.SearchDelays
import MiniUPnPd.SecureMode
import MiniUPnPd.SelectDeadlines
import MiniUPnPd.SelectTimeout
import MiniUPnPd.SoapArguments
import MiniUPnPd.SoapValues
import MiniUPnPd.SsdpPresence
import MiniUPnPd.SsdpSearch
import MiniUPnPd.StunAttributes
import MiniUPnPd.StunFilter
import MiniUPnPd.StunResponses
import MiniUPnPd.TokenRanges
import MiniUPnPd.TokenTexts
import MiniUPnPd.UidNumbering
import MiniUPnPd.UnusedRules
import MiniUPnPd.UpnpDescGen
