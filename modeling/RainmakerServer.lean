import RainmakerServer.Participation
import RainmakerServer.ShareLifetime
import RainmakerServer.TopicAuthority
import RainmakerServer.ClaimOutcome
import RainmakerServer.SingleUse
import RainmakerServer.CertificateIdentity
import RainmakerServer.ShadowReports
import RainmakerServer.GrantSteps
import RainmakerServer.ShareInvitations
import RainmakerServer.AccessFrame
import RainmakerServer.Revocation
import RainmakerServer.AccessProvenance
import RainmakerServer.MappingRetry
import RainmakerServer.ShadowFold
import RainmakerServer.Redelivery
import RainmakerServer.OtaOffers
import RainmakerServer.UserNodes
import RainmakerServer.StateRedelivery
import RainmakerServer.AccountCalls
import RainmakerServer.Sessions
import RainmakerServer.HeaderChecks
import RainmakerServer.AccountCodes
import RainmakerServer.SignupExpiry
import RainmakerServer.Presence
import RainmakerServer.TsdataQueries
import RainmakerServer.GroupForest
import RainmakerServer.OtaRollout
import RainmakerServer.UserStores
import RainmakerServer.ShareRace
import RainmakerServer.AssistedClaims
import RainmakerServer.BatchCreation
import RainmakerServer.ConfigRoundTrip
import RainmakerServer.BulkTsdata
import RainmakerServer.AggregateIntervals
import RainmakerServer.SecretChecks
import RainmakerServer.ReferentialIntegrity
import RainmakerServer.Broker
import RainmakerServer.Freshness
import RainmakerServer.HttpCalls
import RainmakerServer.CommandLoop
import RainmakerServer.Ownership
import RainmakerServer.Guessing
import RainmakerServer.OtaRounds
import RainmakerServer.Unmapping
